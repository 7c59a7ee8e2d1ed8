import CompiledViews.Proofs.Dump.Oatdump.Grammar
import CompiledViews.Proofs.Dump.Oatdump.OneLine
import CompiledViews.Proofs.NatMap

/-!
# What the native calls of an `oatdump` dump call

A native call names no callee, so its name is put together from three places of the dump: the lines
below the call give an address and maybe the index of a method, the last method with that index is
looked up among all methods that are kept, and its DEX code has the name on the last line that
invokes a method at that address. Here all of this is found in the ranges of the dump, and not in
what the reader has made of them.
-/

namespace CompiledViews.Dump.Oatdump

open Text Text.Form

/-- The line that opens a method, by the declaration and the index on it, and the lines up to the
next one that opens a method or a class. -/
abbrev MethodRange := (Text × Text) × List Text

/-- A line of native code, by the address and the code on it, and the lines up to the next one. -/
abbrev CodeRange := (Text × Text) × List Text

/-- The address of an invocation on a line of DEX code and the name of the method. -/
def invocationOf (line : Text) : Option (Nat × Text) := do
  let (address, code) ← dexLine.first? line
  let name ← invocation.first? code
  let key ← hexadecimal? address
  pure (key, name)

/-- The name of the method that the DEX code of a method invokes at an address; of several lines
for it the last one counts. -/
def invoked? (range : MethodRange) (address : Nat) : Option Text :=
  (((afterDex range.2).takeWhile dexLine.accepts).filterMap invocationOf).reverse.lookup address

/-- The methods with code of all classes that are kept. -/
def keptMethods (lines : List Text) : List MethodRange :=
  ((classRanges lines).filter isKept).flatMap fun range => (methodRanges range.2).filter hasCode

/-- Of some methods the last one with an index. -/
def withIndex? (kept : List MethodRange) (index : Nat) : Option MethodRange :=
  (kept.filterMap fun range => (decimal? range.1.2).map (·, range)).reverse.lookup index

/-- The native code of a method. -/
def nativeCode (range : MethodRange) : List CodeRange :=
  match native? (afterDex range.2) with
  | some (_, native) => codeRanges native
  | none => []

/-- The lines of native code of some methods, each with the method. -/
def nativeLines (kept : List MethodRange) : List (MethodRange × CodeRange) :=
  kept.flatMap fun range => (nativeCode range).map (range, ·)

/-- The name of the method that a line of native code calls. The line has the form of a call, and
the line below it is a `StackMap` line. If the line below that one is an `InlineInfo` line, the
address and the method are those on it; otherwise the address is that of the `StackMap` line, in
the method of the call itself. -/
def calleeOf (architecture : Architecture) (kept : List MethodRange) (own : MethodRange) :
    CodeRange → Option Text
  | ((_, code), below) =>
    if architecture.callCode.accepts code then do
      let map ← below.head?
      let address ← stackMapLine.first? map
      match (below.drop 1).head?.bind inlineInfoLine.first? with
      | some (inlinedAddress, index) => do
        let method ← (decimal? index).bind (withIndex? kept)
        (hexadecimal? inlinedAddress).bind (invoked? method)
      | none => (hexadecimal? address).bind (invoked? own)
    else none

/-- The architecture that a dump names, and the lines below its name. -/
def body? (lines : List Text) : Option (Architecture × List Text) :=
  match lines.dropWhile fun line => !startsWith (trim line) "INSTRUCTION SET:" with
  | _ :: name :: body => (Architecture.ofName? (trim name)).map (·, body)
  | _ => none

/-- The lines below the name of the architecture are lines of the dump. -/
theorem subset_of_body? {lines body : List Text} {architecture : Architecture}
    (isBody : body? lines = some (architecture, body)) : body ⊆ lines := by
  unfold body? at isBody
  split at isBody
  case h_1 mark name below isBelow =>
    obtain ⟨_, -, equal⟩ := Option.map_eq_some_iff.1 isBody
    obtain ⟨rfl, rfl⟩ := Prod.mk.inj equal
    have isSuffix := List.dropWhile_suffix (l := lines) fun line =>
      !startsWith (trim line) "INSTRUCTION SET:"
    rw [isBelow] at isSuffix
    exact (((List.suffix_cons _ _).trans (List.suffix_cons _ _)).trans isSuffix).subset
  case h_2 _ => cases isBody

/-! ### Invocations -/

theorem eq_of_insertInvocation {table next : NatMap Text} {line : Text}
    (inserted : insertInvocation table line = some next) :
    next = (invocationOf line).elim table fun pair => table.insert pair.1 pair.2 := by
  unfold insertInvocation at inserted
  unfold invocationOf
  split at inserted
  case h_1 noDex => simpa [noDex, eq_comm] using inserted
  case h_2 address code isDex =>
    split at inserted
    case h_1 noInvocation => simpa [isDex, noInvocation, eq_comm] using inserted
    case h_2 name invokes =>
      obtain ⟨key, isKey, rfl⟩ := Option.map_eq_some_iff.1 inserted
      simp [isDex, invokes, isKey]

/-- Of the invocations at an address the last one is kept. -/
theorem get?_of_foldlM_insertInvocation {lines : List Text} {table final : NatMap Text}
    (inserted : lines.foldlM insertInvocation table = some final) (address : Nat) :
    final.get? address =
      ((lines.filterMap invocationOf).reverse.lookup address).or (table.get? address) := by
  suffices final = (lines.filterMap invocationOf).foldl
      (fun table pair => table.insert pair.1 pair.2) table by
    rw [this, NatMap.get?_foldl_insert]
  induction lines generalizing table with
  | nil => exact (Option.some.inj inserted).symm
  | cons line lines ih =>
      rw [List.foldlM_cons] at inserted
      obtain ⟨next, isNext, others⟩ := Option.bind_eq_some_iff.1 inserted
      rw [ih others, eq_of_insertInvocation isNext, List.filterMap_cons]
      cases invocationOf line <;> rfl

variable {architecture : Architecture} {range : MethodRange} {method : Method}

theorem GivesMethod.get?_references (gives : GivesMethod architecture range method)
    (address : Nat) : method.references.get? address = invoked? range address := by
  rw [get?_of_foldlM_insertInvocation gives.references, NatMap.get?_empty, Option.or_none]
  rfl

theorem GivesMethod.nativeCode (gives : GivesMethod architecture range method) :
    List.Forall₂ (Shows architecture) (nativeCode range) method.instructions := by
  obtain ⟨mark, native, isNative, -, shows⟩ := gives.code
  rw [Oatdump.nativeCode, isNative]
  exact shows

theorem GivesDump.body? {lines : List Text} {classes : List Class}
    (gives : GivesDump lines classes) : ∃ architecture body,
      body? lines = some (architecture, body) ∧ GivesClasses architecture body classes := by
  obtain ⟨before, mark, name, body, architecture, rfl, noMarks, isMark, named, classes⟩ := gives
  refine ⟨architecture, body, ?_, classes⟩
  have found : (before ++ mark :: name :: body).dropWhile
      (fun line => !startsWith (trim line) "INSTRUCTION SET:") = mark :: name :: body := by
    rw [List.dropWhile_append_of_pos fun line member => by rw [noMarks line member]; rfl,
      List.dropWhile_cons_of_neg (by rw [isMark]; decide)]
  rw [Oatdump.body?, found]
  simp only [named, Option.map_some]

/-- The methods of all classes are given by those that are kept, in order. -/
theorem GivesClasses.keptMethods {lines : List Text} {classes : List Class}
    (gives : GivesClasses architecture lines classes) :
    List.Forall₂ (GivesMethod architecture) (keptMethods lines) (classes.flatMap (·.methods)) :=
  List.rel_flatMap gives fun _ _ ofClass => ofClass.methods

/-- What stands on the right of a relation between lists is related to something on the left. -/
theorem exists_of_mem_right {α β : Type} {related : α → β → Prop} {left : List α} {right : List β}
    (relates : List.Forall₂ related left right) {other : β} (member : other ∈ right) :
    ∃ item ∈ left, related item other := by
  induction relates with
  | nil => cases member
  | cons here later ih =>
      rcases List.mem_cons.1 member with rfl | isLater
      · exact ⟨_, List.mem_cons_self, here⟩
      · obtain ⟨item, inLeft, isRelated⟩ := ih isLater
        exact ⟨item, List.mem_cons_of_mem _ inLeft, isRelated⟩

theorem of_mem_nativeLines {kept : List MethodRange} {line : MethodRange × CodeRange}
    (member : line ∈ nativeLines kept) : line.1 ∈ kept ∧ line.2 ∈ nativeCode line.1 := by
  obtain ⟨range, isKept, inRange⟩ := List.mem_flatMap.1 member
  obtain ⟨item, isNative, rfl⟩ := List.mem_map.1 inRange
  exact ⟨isKept, isNative⟩

/-! ### Texts of a dump -/

/-- A text that is a part of one of some lines. -/
def IsPartOfLine (lines : List Text) (text : Text) : Prop := ∃ line ∈ lines, text <:+: line

theorem IsPartOfLine.mono {lines more : List Text} {text : Text} (isPart : IsPartOfLine lines text)
    (subset : lines ⊆ more) : IsPartOfLine more text := by
  obtain ⟨line, member, inLine⟩ := isPart
  exact ⟨line, subset member, inLine⟩

theorem afterDex_subset (lines : List Text) : afterDex lines ⊆ lines :=
  ((List.drop_suffix 1 _).trans (List.dropWhile_suffix _)).subset

theorem isPart_of_invocationOf {line name : Text} {address : Nat}
    (isInvocation : invocationOf line = some (address, name)) : name <:+: line := by
  obtain ⟨⟨addressText, code⟩, isDex, later⟩ := Option.bind_eq_some_iff.1 isInvocation
  obtain ⟨found, invokes, later⟩ := Option.bind_eq_some_iff.1 later
  obtain ⟨key, -, equal⟩ := Option.bind_eq_some_iff.1 later
  obtain ⟨rfl, rfl⟩ := Prod.mk.inj (Option.some.inj equal)
  exact (invocation_reads.first? List.infix_rfl invokes).trans
    (dexLine_reads.first? List.infix_rfl isDex).2

theorem isPartOfLine_of_invoked? {address : Nat} {name : Text}
    (invokes : invoked? range address = some name) : IsPartOfLine range.2 name := by
  obtain ⟨before, after, split, -⟩ := List.lookup_eq_some_iff.1 invokes
  have member : (address, name) ∈
      ((afterDex range.2).takeWhile dexLine.accepts).filterMap invocationOf := by
    rw [← List.mem_reverse, split]
    simp
  obtain ⟨line, inEcho, isInvocation⟩ := List.mem_filterMap.1 member
  exact ⟨line, afterDex_subset _ ((List.takeWhile_prefix _).subset inEcho),
    isPart_of_invocationOf isInvocation⟩

theorem isPartOfLine_of_nativeCode {item : CodeRange} (member : item ∈ nativeCode range) :
    IsPartOfLine range.2 item.1.1 ∧ IsPartOfLine range.2 item.1.2 := by
  unfold nativeCode at member
  split at member
  case h_1 mark native isNative =>
    have subset : native ⊆ range.2 := by
      unfold native? at isNative
      split at isNative
      case h_1 _ => cases isNative
      case h_2 _ below isBelow =>
        obtain ⟨rfl, rfl⟩ := Prod.mk.inj (Option.some.inj isNative)
        have isSuffix := List.dropWhile_suffix (l := afterDex range.2) fun line => !marksCode line
        rw [isBelow] at isSuffix
        exact List.Subset.trans ((List.suffix_cons _ _).trans isSuffix).subset (afterDex_subset _)
    obtain ⟨⟨line, inNative, isCode⟩, -⟩ := of_mem_ranges member
    obtain ⟨address, code⟩ := codeLine_reads.first? List.infix_rfl isCode
    exact ⟨⟨line, subset inNative, address⟩, ⟨line, subset inNative, code⟩⟩
  case h_2 _ => cases member

/-- A method that is kept is opened by one of the lines, and its lines are among them. -/
theorem of_mem_keptMethods {lines : List Text} (member : range ∈ keptMethods lines) :
    (∃ line ∈ lines, methodLine.first? line = some range.1) ∧ range.2 ⊆ lines := by
  obtain ⟨ofClass, isClass, isMethod⟩ := List.mem_flatMap.1 member
  obtain ⟨-, inClass⟩ := of_mem_ranges (List.mem_filter.1 isClass).1
  obtain ⟨⟨line, isLine, opens⟩, inMethod⟩ := of_mem_ranges (List.mem_filter.1 isMethod).1
  exact ⟨⟨line, inClass isLine, opens⟩, List.Subset.trans inMethod inClass⟩

/-- The name of a callee is a part of a line of the dump. -/
theorem isPartOfLine_of_calleeOf {lines : List Text} {line : CodeRange} {name : Text}
    (member : range ∈ keptMethods lines)
    (calls : calleeOf architecture (keptMethods lines) range line = some name) :
    IsPartOfLine lines name := by
  obtain ⟨⟨_, code⟩, below⟩ := line
  rw [calleeOf, Option.ite_none_right_eq_some] at calls
  obtain ⟨map, -, later⟩ := Option.bind_eq_some_iff.1 calls.2
  obtain ⟨address, -, later⟩ := Option.bind_eq_some_iff.1 later
  split at later
  case h_1 inlinedAddress index _ =>
    obtain ⟨callee, isCallee, later⟩ := Option.bind_eq_some_iff.1 later
    obtain ⟨_, -, invokes⟩ := Option.bind_eq_some_iff.1 later
    obtain ⟨number, -, isIndexed⟩ := Option.bind_eq_some_iff.1 isCallee
    obtain ⟨before, after, split, -⟩ := List.lookup_eq_some_iff.1 isIndexed
    have isKept : callee ∈ keptMethods lines := by
      have inPairs : (number, callee) ∈ (keptMethods lines).filterMap
          fun range => (decimal? range.1.2).map (·, range) := by
        rw [← List.mem_reverse, split]
        simp
      obtain ⟨other, isOther, equal⟩ := List.mem_filterMap.1 inPairs
      obtain ⟨_, -, same⟩ := Option.map_eq_some_iff.1 equal
      exact (Prod.mk.inj same).2 ▸ isOther
    exact (isPartOfLine_of_invoked? invokes).mono (of_mem_keptMethods isKept).2
  case h_2 _ =>
    obtain ⟨_, -, invokes⟩ := Option.bind_eq_some_iff.1 later
    exact (isPartOfLine_of_invoked? invokes).mono (of_mem_keptMethods member).2

end CompiledViews.Dump.Oatdump
