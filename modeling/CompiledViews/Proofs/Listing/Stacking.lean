import CompiledViews.Proofs.Listing.Jumps
import CompiledViews.Proofs.Listing.Rows
import CompiledViews.Proofs.NatMap.Override

/-!
# Listings below one another

The listing of some classes and then others is the listing of the first ones with that of the others
below it, and the line numbers of the latter are raised by the number of lines above. Two things
could stand in the way. A builder carries tables from one call to the next, but between two methods
these are empty. And a call may name its callee by an index that is looked up in all classes; so the
two lists of classes must not refer to one another in this way.

`Builder.below` puts what one builder has written below what another one has. A call commutes with
this, so calls from a builder with empty tables on are calls anew, put below it.
-/

namespace CompiledViews.Listing

/-- No instruction of some classes names a method of other ones by its index. -/
def Disregards (classes others : List Class) : Prop :=
  ∀ cls ∈ classes, ∀ method ∈ cls.methods, ∀ instruction ∈ method.instructions,
    ∀ index ∈ instruction.callMethod, ∀ other ∈ others, ∀ callee ∈ other.methods,
      callee.index ≠ some index

instance (classes others : List Class) : Decidable (Disregards classes others) :=
  inferInstanceAs (Decidable (∀ cls ∈ classes, ∀ method ∈ cls.methods,
    ∀ instruction ∈ method.instructions, ∀ index ∈ instruction.callMethod, ∀ other ∈ others,
      ∀ callee ∈ other.methods, callee.index ≠ some index))

/-- A listing that consists of a listing of so many lines and another one below it. A line of the
source that both know is known by its line in the lower one. -/
structure IsStacked (count : Nat) (upper lower whole : Listing) : Prop where
  text : whole.text = upper.text ++ lower.text
  jumps : whole.jumps.pairs =
    upper.jumps.pairs ++ lower.jumps.pairs.map fun jump => (jump.1 + count, jump.2 + count)
  codeToSource : whole.codeToSource.pairs =
    upper.codeToSource.pairs ++ lower.codeToSource.pairs.map fun place => (place.1 + count, place.2)
  codeLine : ∀ sourceLine, whole.codeLine? sourceLine =
    ((lower.codeLine? sourceLine).map (· + count)).or (upper.codeLine? sourceLine)

namespace Builder

/-! ### Calls below what has been written -/

/-- Nothing is left over from the methods so far. -/
structure IsSettled (builder : Builder) : Prop where
  addresses : builder.addresses = .empty
  pendingJumps : builder.pendingJumps = []
  lastLineNumber : builder.lastLineNumber = none

/-- What one builder has written, put below what another one has, and what it is about to do. -/
def below (upper lower : Builder) : Builder where
  style := lower.style
  written := lower.written ++ upper.written
  jumps := upper.jumps.override ((lower.jumps.raise upper.line).mapValues (· + upper.line))
  sourceToCode := upper.sourceToCode.override (lower.sourceToCode.mapValues (· + upper.line))
  codeToSource := upper.codeToSource.override (lower.codeToSource.raise upper.line)
  addresses := lower.addresses.mapValues (· + upper.line)
  pendingJumps := lower.pendingJumps.map fun jump => (jump.1 + upper.line, jump.2)
  lastLineNumber := lower.lastLineNumber

theorem line_below (upper lower : Builder) : (upper.below lower).line = lower.line + upper.line :=
  List.length_append

/-- A builder with empty tables is where it is with nothing below it. -/
theorem IsSettled.below_new {upper : Builder} (settled : upper.IsSettled) :
    upper.below (new upper.style) = upper := by
  obtain ⟨addresses, pendingJumps, lastLineNumber⟩ := settled
  cases upper
  subst addresses pendingJumps lastLineNumber
  rfl

theorem addInstruction_below (upper lower : Builder) (instruction : Instruction)
    (callee : Option Text) :
    (upper.below lower).addInstruction instruction callee =
      upper.below (lower.addInstruction instruction callee) := by
  have codeToSource (number : Nat) :
      (upper.below lower).codeToSource.insert (lower.line + upper.line) number =
        upper.codeToSource.override
          ((lower.codeToSource.insert lower.line number).raise upper.line) := by
    rw [← NatMap.insert_raise, ← NatMap.insert_override]
    rfl
  have sourceToCode (number : Nat) :
      (upper.below lower).sourceToCode.insert number (lower.line + upper.line) =
        upper.sourceToCode.override
          ((lower.sourceToCode.insert number lower.line).mapValues (· + upper.line)) := by
    rw [← NatMap.insert_mapValues (· + upper.line), ← NatMap.insert_override]
    rfl
  have addresses :
      (upper.below lower).addresses.insert instruction.address (lower.line + upper.line) =
        (lower.addresses.insert instruction.address lower.line).mapValues (· + upper.line) :=
    NatMap.insert_mapValues (· + upper.line) ..
  have pendingJumps : (upper.below lower).pendingJumps ++
      instruction.jumpAddress.toList.map (lower.line + upper.line, ·) =
        (lower.pendingJumps ++ instruction.jumpAddress.toList.map (lower.line, ·)).map
          fun jump => (jump.1 + upper.line, jump.2) := by
    rw [List.map_append, List.map_map]
    rfl
  have lastLineNumber : (upper.below lower).lastLineNumber = lower.lastLineNumber := rfl
  simp only [addInstruction, line_below, codeToSource, sourceToCode, addresses, pendingJumps,
    lastLineNumber]
  cases instruction.lineNumber <;> cases lower.lastLineNumber <;> rfl

/-- The jumps of a method lead to the same instructions wherever it stands. -/
theorem resolvedJumps_below (upper lower : Builder) :
    (upper.below lower).resolvedJumps =
      upper.jumps.override
        ((lower.resolvedJumps.raise upper.line).mapValues (· + upper.line)) := by
  simp only [resolvedJumps, below, List.foldl_map, NatMap.get?_mapValues]
  generalize lower.jumps = jumps
  induction lower.pendingJumps generalizing jumps with
  | nil => rfl
  | cons jump pending ih =>
      rw [List.foldl_cons, List.foldl_cons]
      cases lower.addresses.get? jump.2 with
      | none => exact ih jumps
      | some target =>
          have inserted : (upper.jumps.override
              ((jumps.raise upper.line).mapValues (· + upper.line))).insert (jump.1 + upper.line)
                (target + upper.line) = upper.jumps.override
              (((jumps.insert jump.1 target).raise upper.line).mapValues (· + upper.line)) := by
            rw [NatMap.insert_override, NatMap.insert_mapValues (· + upper.line),
              NatMap.insert_raise]
          simp only [Option.map_some, inserted]
          exact ih _

theorem perform_below (upper lower : Builder) (call : Call) :
    (upper.below lower).perform call = upper.below (lower.perform call) := by
  cases call with
  | startClass header => rfl
  | startMethod method =>
      simp only [perform, startMethod, foldl_write, below, List.append_assoc]
  | addInstruction instruction callee => exact addInstruction_below upper lower instruction callee
  | endMethod =>
      simp only [perform, endMethod, resolvedJumps_below]
      rfl

theorem performAll_below (upper lower : Builder) (calls : List Call) :
    (upper.below lower).performAll calls = upper.below (lower.performAll calls) := by
  induction calls generalizing lower with
  | nil => rfl
  | cons call calls ih => rw [performAll_cons, performAll_cons, perform_below, ih]

/-- Calls from a builder with empty tables on are calls anew, put below it. -/
theorem IsSettled.performAll_eq {upper : Builder} (settled : upper.IsSettled)
    (calls : List Call) :
    upper.performAll calls = upper.below ((new upper.style).performAll calls) := by
  rw [← performAll_below, settled.below_new]

/-! ### Tables that are empty -/

theorem isSettled_new (style : Style) : (new style).IsSettled := ⟨rfl, rfl, rfl⟩

/-- Calls that settle a builder item by item settle it in all. -/
theorem IsSettled.flatMap {α : Type} {callsOf : α → List Call}
    (settles : ∀ item builder, IsSettled builder → IsSettled (builder.performAll (callsOf item)))
    {builder : Builder} (settled : builder.IsSettled) (items : List α) :
    (builder.performAll (items.flatMap callsOf)).IsSettled := by
  induction items generalizing builder with
  | nil => exact settled
  | cons item items ih =>
      rw [List.flatMap_cons, performAll_append]
      exact ih (settles item builder settled)

theorem isSettled_ofMethod (byIndex : NatMap (NatMap Text)) (method : Method) (builder : Builder) :
    (builder.performAll (Call.ofMethod byIndex method)).IsSettled := by
  rw [Call.ofMethod, performAll_cons, performAll_append]
  exact ⟨rfl, rfl, rfl⟩

theorem IsSettled.ofClass {builder : Builder} (settled : builder.IsSettled)
    (byIndex : NatMap (NatMap Text)) (cls : Class) :
    (builder.performAll (Call.ofClass byIndex cls)).IsSettled := by
  have opened : (builder.perform (.startClass cls.header)).IsSettled :=
    ⟨settled.addresses, settled.pendingJumps, settled.lastLineNumber⟩
  exact opened.flatMap (fun method builder _ => isSettled_ofMethod byIndex method builder)
    cls.methods

theorem isSettled_ofClasses (style : Style) (classes : List Class) :
    ((new style).performAll (Call.ofClasses classes)).IsSettled :=
  (isSettled_new style).flatMap (fun cls _ settled => settled.ofClass _ cls) classes

/-! ### The maps of two parts -/

/-- The lines from which a builder lets one jump are among those it has written. -/
theorem lt_of_mem_jumps {style : Style} {calls : List Call} {jump : Nat × Nat}
    (isJump : jump ∈ ((new style).performAll calls).jumps.pairs) :
    jump.1 < Call.lineAfter style calls := by
  have hasJump := (get?_jumps_iff style calls jump.1 jump.2).1 ((NatMap.mem_pairs_iff ..).1 isJump)
  obtain ⟨⟨_, placed⟩, -⟩ := hasJump.placed
  exact Nat.zero_add (Call.lineAfter style calls) ▸ (Call.line_bounds_of_mem_placements placed).2

theorem lt_of_mem_codeToSource {style : Style} {calls : List Call} {place : Nat × Nat}
    (isPlace : place ∈ ((new style).performAll calls).codeToSource.pairs) :
    place.1 < Call.lineAfter style calls := by
  obtain ⟨_, placed⟩ := placed_of_get?_codeToSource ((NatMap.mem_pairs_iff ..).1 isPlace)
  exact Nat.zero_add (Call.lineAfter style calls) ▸ (Call.line_bounds_of_mem_placements placed).2

/-- The listing of calls that leave nothing over and of further ones. -/
theorem isStacked_build {style : Style} {calls : List Call}
    (settled : ((new style).performAll calls).IsSettled) (further : List Call) :
    IsStacked (Call.lineAfter style calls) ((new style).performAll calls).build
      ((new style).performAll further).build
      ((new style).performAll (calls ++ further)).build := by
  have whole : (new style).performAll (calls ++ further) =
      ((new style).performAll calls).below ((new style).performAll further) := by
    rw [performAll_append, settled.performAll_eq, style_performAll]
    rfl
  have line := line_performAll_new style calls
  constructor
  case text => simp [whole, build, text, below]
  case jumps =>
    simp only [whole, build, below, line]
    rw [NatMap.pairs_override]
    · simp [NatMap.mapValues, NatMap.raise]
    · intro jump isJump other isRaised
      have inUpper := lt_of_mem_jumps isJump
      simp only [NatMap.mapValues, NatMap.raise, List.map_map, List.mem_map] at isRaised
      obtain ⟨lower, -, rfl⟩ := isRaised
      exact Nat.lt_of_lt_of_le inUpper (Nat.le_add_left ..)
  case codeToSource =>
    simp only [whole, build, below, line]
    rw [NatMap.pairs_override]
    · rfl
    · intro place isPlace other isRaised
      have inUpper := lt_of_mem_codeToSource isPlace
      obtain ⟨lower, -, rfl⟩ := List.mem_map.1 isRaised
      exact Nat.lt_of_lt_of_le inUpper (Nat.le_add_left ..)
  case codeLine =>
    intro sourceLine
    simp only [whole, build, below, line, codeLine?, NatMap.get?_override, NatMap.get?_mapValues]

end Builder

/-! ### The callees of two parts -/

section callee

variable {classes others : List Class}

/-- The references of methods by their index, in the classes that come last. -/
theorem get?_referencesByIndex_append (classes others : List Class) (index : Nat) :
    (referencesByIndex (classes ++ others)).get? index =
      ((referencesByIndex others).get? index).or ((referencesByIndex classes).get? index) := by
  simp only [referencesByIndex, NatMap.get?_ofList, List.flatMap_append, List.filterMap_append,
    List.reverse_append, List.lookup_append]

theorem get?_referencesByIndex_eq_none {index : Nat}
    (absent : ∀ cls ∈ classes, ∀ method ∈ cls.methods, method.index ≠ some index) :
    (referencesByIndex classes).get? index = none := by
  rw [referencesByIndex, NatMap.get?_ofList, List.lookup_eq_none_iff]
  intro pair isPair
  obtain ⟨method, isMethod, indexed⟩ := List.mem_filterMap.1 (List.mem_reverse.1 isPair)
  obtain ⟨own, isIndex, rfl⟩ := Option.map_eq_some_iff.1 indexed
  obtain ⟨cls, isClass, inClass⟩ := List.mem_flatMap.1 isMethod
  rw [bne_iff_ne]
  rintro rfl
  exact absent cls isClass method inClass isIndex

theorem callee?_congr {byIndex other : NatMap (NatMap Text)} {instruction : Instruction}
    (same : ∀ index ∈ instruction.callMethod, byIndex.get? index = other.get? index)
    (method : Method) : callee? byIndex method instruction = callee? other method instruction := by
  cases isCall : instruction.callMethod with
  | none => simp [callee?, isCall]
  | some index => simp [callee?, isCall, same index isCall]

/-- Classes make the same calls when the methods by index are known in another way, if that knows
the same of those that they name. -/
theorem flatMap_ofClass_congr {byIndex other : NatMap (NatMap Text)}
    (same : ∀ cls ∈ classes, ∀ method ∈ cls.methods, ∀ instruction ∈ method.instructions,
      ∀ index ∈ instruction.callMethod, byIndex.get? index = other.get? index) :
    classes.flatMap (Call.ofClass byIndex) = classes.flatMap (Call.ofClass other) := by
  refine List.flatMap_congr fun cls isClass => congrArg (Call.startClass cls.header :: ·) ?_
  refine List.flatMap_congr fun method isMethod => ?_
  rw [Call.ofMethod, Call.ofMethod, Call.ofInstructions, Call.ofInstructions]
  have instructions : method.instructions.map (fun instruction =>
      Call.addInstruction instruction (callee? byIndex method instruction)) =
        method.instructions.map fun instruction =>
          Call.addInstruction instruction (callee? other method instruction) := by
    refine List.map_congr_left fun instruction isInstruction => ?_
    rw [callee?_congr (same cls isClass method isMethod instruction isInstruction)]
  rw [instructions]

/-- Classes that do not refer to one another are listed by the calls for each of them. -/
theorem ofClasses_append (forth : Disregards classes others) (back : Disregards others classes) :
    Call.ofClasses (classes ++ others) = Call.ofClasses classes ++ Call.ofClasses others := by
  rw [Call.ofClasses, List.flatMap_append, Call.ofClasses, Call.ofClasses]
  congr 1
  · refine flatMap_ofClass_congr ?_
    intro cls isClass method isMethod instruction isShown index named
    have absent := get?_referencesByIndex_eq_none
      (forth cls isClass method isMethod instruction isShown index named)
    rw [get?_referencesByIndex_append, absent, Option.none_or]
  · refine flatMap_ofClass_congr ?_
    intro cls isClass method isMethod instruction isShown index named
    have absent := get?_referencesByIndex_eq_none
      (back cls isClass method isMethod instruction isShown index named)
    rw [get?_referencesByIndex_append, absent, Option.or_none]

end callee

/-- The listing of some classes and then others is that of the first ones with that of the others
below it, if no instruction of the ones names a method of the others by its index. -/
theorem isStacked_ofClasses {upper lower : List Class} (forth : Disregards upper lower)
    (back : Disregards lower upper) (style : Style) :
    IsStacked (Call.lineAfter style (Call.ofClasses upper)) (ofClasses upper style)
      (ofClasses lower style) (ofClasses (upper ++ lower) style) := by
  rw [ofClasses_eq_build, ofClasses_eq_build, ofClasses_eq_build, ofClasses_append forth back]
  exact Builder.isStacked_build (Builder.isSettled_ofClasses style upper) _

/-- A class with a method that calls what another one invokes, and a loop in that one. -/
def relayClasses : List Class :=
  [{ header := "class Relay"
     methods :=
       [{ header := "void f()", index := some 7, codeSize := none, isa := .x86_64
          instructions :=
            [{ Instruction.ofCode 0x10 "0x10" "call rax" none with
               callAddress := some 2, callMethod := some 9, lineNumber := some 3 }]
          references := .empty },
        { header := "void g()", index := some 9, codeSize := none, isa := .x86_64
          instructions := [Instruction.ofCode 0x20 "0x20" "jmp +0" (some 0x20)]
          references := NatMap.empty.insert 2 "k()" }] }]

/-- Below the class the jump of the other one goes on leading to itself, and the line of the source
that both come from is known by the lower one. -/
theorem isStacked_ofClasses_relay :
    Disregards relayClasses loopClasses ∧ Disregards loopClasses relayClasses ∧
      Call.lineAfter .default (Call.ofClasses relayClasses) = 10 ∧
      (ofClasses (relayClasses ++ loopClasses) .default).jumps.pairs = [(8, 8), (14, 14)] ∧
      (ofClasses (relayClasses ++ loopClasses) .default).codeToSource.pairs = [(3, 3), (14, 3)] ∧
      (ofClasses (relayClasses ++ loopClasses) .default).codeLine? 3 = some 14 := by
  have forth : Disregards relayClasses loopClasses := by decide
  have back : Disregards loopClasses relayClasses := by decide
  have stacked := isStacked_ofClasses forth back .default
  refine ⟨forth, back, by decide, ?_, ?_, ?_⟩
  · rw [stacked.jumps]
    decide
  · rw [stacked.codeToSource]
    decide
  · rw [stacked.codeLine]
    decide

end CompiledViews.Listing
