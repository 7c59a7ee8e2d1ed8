import CompiledViews.Proofs.Listing.Rows

/-!
# Source lines of a listing

An instruction stands behind the rows of all that comes before it in the classes, and `StandsOn`
counts these. Both maps between lines of code and lines of the source are about instructions only,
and they are filled in opposite ways. A line of the source is known by the last instruction of all
classes that comes from it. A line of code is known by the nearest instruction at or above it that
has a source line, and this is looked for in its own method only: while a listing is written,
`Call.carried` is what is carried from one instruction to the next, and the end of a method drops
it.
-/

namespace CompiledViews

/-- The source line of the nearest instruction with one, at or before a position of a method. -/
def Method.nearestLineNumber? (method : Method) (position : Nat) : Option Nat :=
  (method.instructions.take (position + 1)).reverse.findSome? (·.lineNumber)

namespace Listing

/-- The rows above the instructions of a method. -/
def Row.above (method : Method) : List Row :=
  [Row.methodHeader method, .instructionSummary method] ++ ofBranches method

/-- The instruction at a position of a method stands on a line of the listing of some classes: above
it are the rows of the classes before its own, the header of that, the rows of the methods before
its own, and the rows above the instructions of that. -/
def StandsOn (classes : List Class) (line : Nat) (method : Method) (position : Nat) : Prop :=
  position < method.instructions.length ∧ ∃ earlier cls later before after,
    classes = earlier ++ cls :: later ∧ cls.methods = before ++ method :: after ∧
    line = (earlier.flatMap (Row.ofClass (referencesByIndex classes))).length + 1 +
      (before.flatMap (Row.ofMethod (referencesByIndex classes))).length +
      (Row.above method).length + position

/-- The last instruction of all classes that comes from a line of the source stands on a line. -/
def IsLastFrom (classes : List Class) (sourceLine line : Nat) : Prop :=
  (∃ method position instruction, StandsOn classes line method position ∧
    method.instructions[position]? = some instruction ∧
    instruction.lineNumber = some sourceLine) ∧
  ∀ other method position instruction, StandsOn classes other method position →
    method.instructions[position]? = some instruction →
    instruction.lineNumber = some sourceLine → other ≤ line

/-! ### The calls of the instructions -/

theorem exists_of_flatMap_eq {α β : Type} {items : List α} {listOf : α → List β}
    {before after : List β} {entry : β} (split : items.flatMap listOf = before ++ entry :: after) :
    ∃ earlier item later front back, items = earlier ++ item :: later ∧
      listOf item = front ++ entry :: back ∧ before = earlier.flatMap listOf ++ front := by
  induction items generalizing before with
  | nil => simp at split
  | cons item items ih =>
      rw [List.flatMap_cons] at split
      rcases List.append_eq_append_iff.1 split with ⟨gap, rfl, others⟩ | ⟨gap, here, others⟩
      · rcases ih others with ⟨earlier, next, later, front, back, rfl, isItem, rfl⟩
        exact ⟨item :: earlier, next, later, front, back, rfl, isItem, by simp⟩
      · rcases gap with _ | ⟨first, gap⟩
        · have atStart : items.flatMap listOf = [] ++ entry :: after := others.symm
          rcases ih atStart with ⟨earlier, next, later, front, back, rfl, isItem, none⟩
          refine ⟨item :: earlier, next, later, front, back, rfl, isItem, ?_⟩
          rw [List.flatMap_cons, List.append_assoc, ← none, here]
          simp
        · rcases List.cons.inj others with ⟨rfl, -⟩
          exact ⟨[], item, items, before, gap, rfl, here, rfl⟩

/-- The calls before an instruction of a method list the instructions before it. -/
theorem exists_of_ofInstructions_append {byIndex : NatMap (NatMap Text)} {method : Method}
    {front back : List Call} {instruction : Instruction} {callee : Option Text}
    (split : Call.ofInstructions byIndex method ++ [.endMethod] =
      front ++ .addInstruction instruction callee :: back) :
    ∃ position, method.instructions[position]? = some instruction ∧
      front = (Call.ofInstructions byIndex method).take position := by
  have placed : (Call.ofInstructions byIndex method ++ [.endMethod])[front.length]? =
      some (.addInstruction instruction callee) := by simp [split]
  have within : front.length < (Call.ofInstructions byIndex method).length := by
    by_contra beyond
    rw [List.getElem?_append_right (Nat.le_of_not_lt beyond)] at placed
    exact absurd (List.mem_of_getElem? placed) (by simp)
  refine ⟨front.length, ?_, ?_⟩
  · rw [List.getElem?_append_left within, Call.ofInstructions, List.getElem?_map] at placed
    rcases Option.map_eq_some_iff.1 placed with ⟨shown, isShown, equal⟩
    rcases (Call.addInstruction.inj equal).1 with rfl
    exact isShown
  · have whole : (front ++ .addInstruction instruction callee :: back).take front.length = front :=
      List.take_left
    rw [← split, List.take_append_of_le_length (Nat.le_of_lt within)] at whole
    exact whole.symm

/-- The calls above an instruction of a method. -/
def Call.above (byIndex : NatMap (NatMap Text)) (earlier : List Class) (cls : Class)
    (before : List Method) (method : Method) (position : Nat) : List Call :=
  earlier.flatMap (ofClass byIndex) ++ .startClass cls.header ::
    (before.flatMap (ofMethod byIndex) ++ .startMethod method ::
      (ofInstructions byIndex method).take position)

/-- The calls before one that adds an instruction are those above that instruction. -/
theorem exists_of_ofClasses_eq {classes : List Class} {front back : List Call}
    {instruction : Instruction} {callee : Option Text}
    (split : Call.ofClasses classes = front ++ .addInstruction instruction callee :: back) :
    ∃ earlier cls later before method after position,
      classes = earlier ++ cls :: later ∧ cls.methods = before ++ method :: after ∧
      method.instructions[position]? = some instruction ∧
      front = Call.above (referencesByIndex classes) earlier cls before method position := by
  rcases exists_of_flatMap_eq split with
    ⟨earlier, cls, later, inClass, rest, isClasses, isClass, rfl⟩
  rcases inClass with _ | ⟨opening, inClass⟩
  · cases (List.cons.inj isClass).1
  rcases List.cons.inj isClass with ⟨rfl, ofMethods⟩
  rcases exists_of_flatMap_eq ofMethods with
    ⟨before, method, after, inMethod, rest, isMethods, isMethod, rfl⟩
  rcases inMethod with _ | ⟨opening, inMethod⟩
  · cases (List.cons.inj isMethod).1
  rcases List.cons.inj isMethod with ⟨rfl, ofInstructions⟩
  rcases exists_of_ofInstructions_append ofInstructions with ⟨position, isShown, rfl⟩
  exact ⟨earlier, cls, later, before, method, after, position, isClasses, isMethods, isShown, rfl⟩

/-- The calls above an instruction are followed by the one that adds it. -/
theorem exists_flatMap_ofClass_eq (byIndex : NatMap (NatMap Text)) (earlier later : List Class)
    {cls : Class} {before after : List Method} {method : Method} {position : Nat}
    {instruction : Instruction} (isMethods : cls.methods = before ++ method :: after)
    (isShown : method.instructions[position]? = some instruction) :
    ∃ callee back, (earlier ++ cls :: later).flatMap (Call.ofClass byIndex) =
      Call.above byIndex earlier cls before method position ++
        .addInstruction instruction callee :: back := by
  have added : (Call.ofInstructions byIndex method)[position]? =
      some (.addInstruction instruction (callee? byIndex method instruction)) := by
    rw [Call.ofInstructions, List.getElem?_map, isShown, Option.map_some]
  rcases List.getElem?_eq_some_iff.1 added with ⟨within, added⟩
  obtain ⟨rest, ofInstructions⟩ : ∃ rest, Call.ofInstructions byIndex method =
      (Call.ofInstructions byIndex method).take position ++
        .addInstruction instruction (callee? byIndex method instruction) :: rest := by
    refine ⟨(Call.ofInstructions byIndex method).drop (position + 1), ?_⟩
    rw [← added, ← List.drop_eq_getElem_cons within, List.take_append_drop]
  refine ⟨callee? byIndex method instruction, rest ++ .endMethod ::
    (after.flatMap (Call.ofMethod byIndex) ++ later.flatMap (Call.ofClass byIndex)), ?_⟩
  rw [List.flatMap_append, List.flatMap_cons, Call.ofClass, isMethods, List.flatMap_append,
    List.flatMap_cons, Call.ofMethod, ofInstructions]
  simp only [Call.above, List.append_assoc, List.cons_append, List.nil_append]

theorem Call.lineAfter_above (style : Style) (byIndex : NatMap (NatMap Text))
    (earlier : List Class) (cls : Class) (before : List Method) {method : Method} {position : Nat}
    (within : position < method.instructions.length) :
    lineAfter style (above byIndex earlier cls before method position) =
      (earlier.flatMap (Row.ofClass byIndex)).length + 1 +
        (before.flatMap (Row.ofMethod byIndex)).length + (Row.above method).length + position := by
  have ofEarlier : (earlier.flatMap (ofClass byIndex)).flatMap Row.ofCall =
      earlier.flatMap (Row.ofClass byIndex) := by
    simp only [List.flatMap_assoc, Row.flatMap_ofClass]
  have ofBefore : (before.flatMap (ofMethod byIndex)).flatMap Row.ofCall =
      before.flatMap (Row.ofMethod byIndex) := by
    simp only [List.flatMap_assoc, Row.flatMap_ofMethod]
  have ofPosition : (((ofInstructions byIndex method).take position).flatMap Row.ofCall).length =
      position := by
    rw [ofInstructions, ← List.map_take, List.flatMap_map]
    simp [Row.ofCall, Nat.min_eq_left (Nat.le_of_lt within)]
  rw [← Row.length_flatMap_ofCall, above, List.flatMap_append, ofEarlier, List.flatMap_cons,
    List.flatMap_append, ofBefore, List.flatMap_cons]
  simp only [Row.ofCall, Row.above, List.length_append, List.length_singleton, ofPosition]
  omega

/-! ### What is carried from one instruction to the next -/

namespace Call

/-- The source line that the instructions after a call inherit. -/
def carry (last : Option Nat) : Call → Option Nat
  | startClass _ | startMethod _ => last
  | addInstruction instruction _ => instruction.lineNumber <|> last
  | endMethod => none

/-- The source line that the instructions after some calls inherit. -/
def carried (calls : List Call) : Option Nat := calls.foldl carry none

theorem foldl_carry_ofMethod (byIndex : NatMap (NatMap Text)) (method : Method)
    (last : Option Nat) : (ofMethod byIndex method).foldl carry last = none := by
  simp [ofMethod, carry]

theorem foldl_carry_flatMap_ofMethod (byIndex : NatMap (NatMap Text)) (methods : List Method) :
    (methods.flatMap (ofMethod byIndex)).foldl carry none = none := by
  rw [List.foldl_flatMap]
  exact List.foldl_fixed' (foldl_carry_ofMethod byIndex · none) methods

theorem foldl_carry_flatMap_ofClass (byIndex : NatMap (NatMap Text)) (classes : List Class) :
    (classes.flatMap (ofClass byIndex)).foldl carry none = none := by
  rw [List.foldl_flatMap]
  exact List.foldl_fixed' (fun cls => foldl_carry_flatMap_ofMethod byIndex cls.methods) classes

theorem foldl_carry_ofInstructions (byIndex : NatMap (NatMap Text)) (method : Method)
    (position : Nat) :
    ((ofInstructions byIndex method).take (position + 1)).foldl carry none =
      method.nearestLineNumber? position := by
  rw [ofInstructions, ← List.map_take, List.foldl_map, Method.nearestLineNumber?]
  induction method.instructions.take (position + 1) using List.reverseRecOn with
  | nil => rfl
  | append_singleton instructions instruction ih =>
      rw [List.foldl_concat, ih, List.reverse_concat, List.findSome?_cons]
      cases source : instruction.lineNumber <;> simp [carry, source]

/-- As the end of a method drops what is carried, an instruction inherits from its own method. -/
theorem carried_above (byIndex : NatMap (NatMap Text)) (earlier : List Class) (cls : Class)
    (before : List Method) {method : Method} {position : Nat} {instruction : Instruction}
    (isShown : method.instructions[position]? = some instruction) (callee : Option Text) :
    carried (above byIndex earlier cls before method position ++
        [.addInstruction instruction callee]) = method.nearestLineNumber? position := by
  have above_carry : carried (above byIndex earlier cls before method position) =
      ((ofInstructions byIndex method).take position).foldl carry none := by
    rw [carried, above, List.foldl_append, foldl_carry_flatMap_ofClass, List.foldl_cons, carry,
      List.foldl_append, foldl_carry_flatMap_ofMethod, List.foldl_cons, carry]
  rw [← foldl_carry_ofInstructions byIndex, List.take_add_one, List.foldl_append, ← above_carry,
    carried, List.foldl_append, ofInstructions, List.getElem?_map, isShown]
  rfl

end Call

namespace Builder

theorem lastLineNumber_performAll (builder : Builder) (calls : List Call) :
    (builder.performAll calls).lastLineNumber = calls.foldl Call.carry builder.lastLineNumber := by
  induction calls generalizing builder with
  | nil => rfl
  | cons call calls ih =>
      rw [performAll_cons, ih, List.foldl_cons]
      cases call <;> simp [perform, startClass, startMethod, foldl_write, write, addInstruction,
        endMethod, Call.carry]

/-- What is known about the lines so far stays known. -/
theorem get?_codeToSource_perform (builder : Builder) (call : Call) {line : Nat}
    (written : line < builder.line) :
    (builder.perform call).codeToSource.get? line = builder.codeToSource.get? line := by
  cases call with
  | addInstruction instruction callee =>
      simp only [perform, addInstruction]
      split
      · rw [NatMap.get?_insert, if_neg (Nat.ne_of_lt written)]
      · rfl
  | _ => simp [perform, startClass, startMethod, foldl_write, write, endMethod]

theorem get?_codeToSource_new_of_le {style : Style} {calls : List Call} {line : Nat}
    (unwritten : Call.lineAfter style calls ≤ line) :
    ((new style).performAll calls).codeToSource.get? line = none := by
  rw [Option.eq_none_iff_forall_ne_some]
  intro sourceLine found
  rcases placed_of_get?_codeToSource found with ⟨instruction, placed⟩
  have bounds := Call.line_bounds_of_mem_placements placed
  omega

/-- The line of an instruction comes from the source line that is carried as far as to it. -/
theorem get?_codeToSource_performAll (style : Style) (before after : List Call)
    (instruction : Instruction) (callee : Option Text) :
    ((new style).performAll (before ++ .addInstruction instruction callee :: after)
        ).codeToSource.get? (Call.lineAfter style before) =
      Call.carried (before ++ [.addInstruction instruction callee]) := by
  induction after using List.reverseRecOn with
  | nil =>
      have unknown := get?_codeToSource_new_of_le (Nat.le_refl (Call.lineAfter style before))
      have last := lastLineNumber_performAll (new style) before
      have line := line_performAll_new style before
      rw [performAll_append, Call.carried, List.foldl_concat, Call.carry]
      generalize (new style).performAll before = builder at unknown last line
      simp only [performAll_cons, performAll_nil, perform, addInstruction, ← line, last, new]
      split
      case h_1 sourceLine isCarried => rw [NatMap.get?_insert, if_pos rfl, isCarried]
      case h_2 isCarried => rw [line, unknown, isCarried]
  | append_singleton after call ih =>
      have above : Call.lineAfter style before <
          Call.lineAfter style (before ++ .addInstruction instruction callee :: after) := by
        rw [Call.lineAfter_append]
        simp [Call.lineAfter, Call.lines]
      rw [← List.cons_append, ← List.append_assoc, performAll_append, ← ih]
      rw [← line_performAll_new style (before ++ _)] at above
      exact get?_codeToSource_perform _ call above

end Builder

/-! ### Where an instruction stands -/

/-- An instruction is at a position of a method that stands on a line when a call adds it there, and
what is carried as far as to it is the nearest source line in its method. -/
theorem exists_standsOn_iff {classes : List Class} (style : Style) {line : Nat}
    {instruction : Instruction} {source : Option Nat} :
    (∃ method position, StandsOn classes line method position ∧
        method.instructions[position]? = some instruction ∧
        method.nearestLineNumber? position = source) ↔
      ∃ front callee back,
        Call.ofClasses classes = front ++ Call.addInstruction instruction callee :: back ∧
        line = Call.lineAfter style front ∧
        Call.carried (front ++ [Call.addInstruction instruction callee]) = source := by
  constructor
  · rintro ⟨method, position, ⟨within, earlier, cls, later, before, after, isClasses, isMethods,
      isLine⟩, isShown, isNearest⟩
    obtain ⟨callee, back, split⟩ := exists_flatMap_ofClass_eq (referencesByIndex classes) earlier
      later isMethods isShown
    rw [← isClasses] at split
    refine ⟨_, callee, back, split, ?_, ?_⟩
    · rw [Call.lineAfter_above _ _ _ _ _ within, isLine]
    · rw [Call.carried_above _ _ _ _ isShown, isNearest]
  · rintro ⟨front, callee, back, split, isLine, isCarried⟩
    obtain ⟨earlier, cls, later, before, method, after, position, isClasses, isMethods, isShown,
      rfl⟩ := exists_of_ofClasses_eq split
    have within := (List.getElem?_eq_some_iff.1 isShown).1
    refine ⟨method, position, ⟨within, earlier, cls, later, before, after, isClasses, isMethods,
      ?_⟩, isShown, ?_⟩
    · rw [isLine, Call.lineAfter_above _ _ _ _ _ within]
    · rw [← isCarried, Call.carried_above _ _ _ _ isShown]

/-- The instructions that are placed are those that stand on a line. -/
theorem mem_placements_ofClasses_iff {classes : List Class} (style : Style) {line : Nat}
    {instruction : Instruction} :
    (line, instruction) ∈ Call.placements style 0 (Call.ofClasses classes) ↔
      ∃ method position, StandsOn classes line method position ∧
        method.instructions[position]? = some instruction := by
  simp only [Call.mem_placements_iff, Nat.zero_add]
  constructor
  · rintro ⟨front, callee, back, split, isLine⟩
    rcases (exists_standsOn_iff style).2 ⟨front, callee, back, split, isLine, rfl⟩ with
      ⟨method, position, stands, isShown, -⟩
    exact ⟨method, position, stands, isShown⟩
  · rintro ⟨method, position, stands, isShown⟩
    rcases (exists_standsOn_iff style).1 ⟨method, position, stands, isShown, rfl⟩ with
      ⟨front, callee, back, split, isLine, -⟩
    exact ⟨front, callee, back, split, isLine⟩

/-- A row that shows an instruction is written by a call that adds it. -/
theorem exists_of_getElem?_flatMap_ofCall (style : Style) {calls : List Call} {line : Nat}
    {shown : Instruction} {callee : Option Text}
    (row : (calls.flatMap Row.ofCall)[line]? = some (.instruction shown callee)) :
    ∃ before after, calls = before ++ .addInstruction shown callee :: after ∧
      line = Call.lineAfter style before := by
  rcases List.getElem?_eq_some_iff.1 row with ⟨within, isRow⟩
  have rows := List.take_append_drop line (calls.flatMap Row.ofCall)
  rw [List.drop_eq_getElem_cons within, isRow] at rows
  rcases exists_of_flatMap_eq rows.symm with
    ⟨before, call, after, front, back, isCalls, ofCall, isAbove⟩
  have member : Row.instruction shown callee ∈ Row.ofCall call := by simp [ofCall]
  cases call with
  | addInstruction instruction called =>
      rcases List.singleton_eq_append_iff.1 ofCall with ⟨rfl, same⟩ | ⟨-, isNil⟩
      · rcases Row.instruction.inj (List.cons.inj same).1 with ⟨rfl, rfl⟩
        refine ⟨before, after, isCalls, ?_⟩
        rw [← Row.length_flatMap_ofCall, ← List.append_nil (before.flatMap _), ← isAbove,
          List.length_take_of_le (Nat.le_of_lt within)]
      · exact absurd isNil (List.cons_ne_nil _ _)
  | startMethod method => simp [Row.ofCall, Row.ofBranches] at member
  | _ => simp [Row.ofCall] at member

/-- The rows that show an instruction are the lines on which one stands. -/
theorem row_iff_standsOn {classes : List Class} {line : Nat} {shown : Instruction} :
    (∃ callee, (Row.ofClasses classes)[line]? = some (.instruction shown callee)) ↔
      ∃ method position, StandsOn classes line method position ∧
        method.instructions[position]? = some shown := by
  rw [← mem_placements_ofClasses_iff .default, ← Row.flatMap_ofClasses, Call.mem_placements_iff]
  constructor
  · rintro ⟨callee, row⟩
    rcases exists_of_getElem?_flatMap_ofCall .default row with ⟨before, after, split, isLine⟩
    exact ⟨before, callee, after, split, by rw [isLine, Nat.zero_add]⟩
  · rintro ⟨before, callee, after, split, isLine⟩
    rw [isLine, Nat.zero_add]
    exact ⟨callee, Row.getElem?_of_call .default split⟩

/-- Every instruction of some classes stands on a line. -/
theorem exists_standsOn {classes : List Class} {cls : Class} (isClass : cls ∈ classes)
    {method : Method} (isMethod : method ∈ cls.methods) {instruction : Instruction}
    (isShown : instruction ∈ method.instructions) :
    ∃ line position, StandsOn classes line method position ∧
      method.instructions[position]? = some instruction := by
  rcases List.append_of_mem isClass with ⟨earlier, later, isClasses⟩
  rcases List.append_of_mem isMethod with ⟨before, after, isMethods⟩
  rcases List.getElem_of_mem isShown with ⟨position, within, isAt⟩
  exact ⟨_, position, ⟨within, earlier, cls, later, before, after, isClasses, isMethods, rfl⟩,
    List.getElem?_eq_some_iff.2 ⟨within, isAt⟩⟩

/-! ### The maps -/

/-- What the maps between lines of code and lines of the source hold for a listing of classes. -/
structure MapsSource (classes : List Class) (listing : Listing) : Prop where
  codeLine : ∀ sourceLine line,
    listing.codeLine? sourceLine = some line ↔ IsLastFrom classes sourceLine line
  noCodeLine : ∀ sourceLine, listing.codeLine? sourceLine = none ↔
    ∀ cls ∈ classes, ∀ method ∈ cls.methods, ∀ instruction ∈ method.instructions,
      instruction.lineNumber ≠ some sourceLine
  sourceLine : ∀ line sourceLine, listing.sourceLine? line = some sourceLine ↔
    ∃ method position, StandsOn classes line method position ∧
      method.nearestLineNumber? position = some sourceLine
  -- Instructions before the first one with a source line in their method included.
  ofInstruction : ∀ line method position, StandsOn classes line method position →
    listing.sourceLine? line = method.nearestLineNumber? position
  ofOtherRow : ∀ line, ¬ShowsInstruction classes line → listing.sourceLine? line = none
  roundTrip : ∀ sourceLine line, listing.codeLine? sourceLine = some line →
    listing.sourceLine? line = some sourceLine

/-- The line of an instruction is known to come from the nearest source line in its method. -/
theorem sourceLine?_ofClasses {classes : List Class} {line : Nat} {method : Method}
    {position : Nat} (stands : StandsOn classes line method position) (style : Style) :
    (ofClasses classes style).sourceLine? line = method.nearestLineNumber? position := by
  have isShown := List.getElem?_eq_getElem stands.1
  rcases (exists_standsOn_iff style).1 ⟨method, position, stands, isShown, rfl⟩ with
    ⟨front, callee, back, split, rfl, isCarried⟩
  rw [ofClasses_eq_build, split, ← isCarried]
  exact Builder.get?_codeToSource_performAll style front back _ callee

theorem codeLine?_ofClasses (classes : List Class) (style : Style) (sourceLine : Nat) :
    (ofClasses classes style).codeLine? sourceLine =
      lastLine? (·.lineNumber == some sourceLine)
        (Call.placements style 0 (Call.ofClasses classes)) := by
  rw [ofClasses_eq_build]
  exact Builder.get?_sourceToCode_performAll style _ sourceLine

theorem codeLine?_ofClasses_eq_some_iff {classes : List Class} {style : Style}
    {sourceLine line : Nat} :
    (ofClasses classes style).codeLine? sourceLine = some line ↔
      IsLastFrom classes sourceLine line := by
  rw [codeLine?_ofClasses, lastLine?_eq_some_iff (Call.placements_ascending ..)]
  simp only [mem_placements_ofClasses_iff, beq_iff_eq, IsLastFrom]
  constructor
  · rintro ⟨⟨instruction, ⟨method, position, stands, isShown⟩, isFrom⟩, greatest⟩
    refine ⟨⟨method, position, instruction, stands, isShown, isFrom⟩, ?_⟩
    intro other method position instruction stands isShown
    exact greatest other instruction ⟨method, position, stands, isShown⟩
  · rintro ⟨⟨method, position, instruction, stands, isShown, isFrom⟩, greatest⟩
    refine ⟨⟨instruction, ⟨method, position, stands, isShown⟩, isFrom⟩, ?_⟩
    rintro other instruction ⟨method, position, stands, isShown⟩
    exact greatest other method position instruction stands isShown

theorem codeLine?_ofClasses_eq_none_iff {classes : List Class} {style : Style} {sourceLine : Nat} :
    (ofClasses classes style).codeLine? sourceLine = none ↔
      ∀ cls ∈ classes, ∀ method ∈ cls.methods, ∀ instruction ∈ method.instructions,
        instruction.lineNumber ≠ some sourceLine := by
  rw [codeLine?_ofClasses, lastLine?_eq_none_iff]
  simp only [Prod.forall, mem_placements_ofClasses_iff, beq_iff_eq]
  constructor
  · intro none cls isClass method isMethod instruction isShown
    rcases exists_standsOn isClass isMethod isShown with ⟨line, position, stands, isAt⟩
    exact none line instruction ⟨method, position, stands, isAt⟩
  · rintro none line instruction ⟨method, position, stands, isAt⟩
    rcases stands.2 with ⟨earlier, cls, later, before, after, rfl, isMethods, -⟩
    exact none cls (by simp) method (by simp [isMethods]) instruction (List.mem_of_getElem? isAt)

/-- Only lines on which an instruction stands come from a line of the source. -/
theorem exists_standsOn_of_sourceLine? {classes : List Class} {style : Style}
    {line sourceLine : Nat} (found : (ofClasses classes style).sourceLine? line = some sourceLine) :
    ∃ method position, StandsOn classes line method position ∧
      method.nearestLineNumber? position = some sourceLine := by
  have known := found
  rw [ofClasses_eq_build] at known
  rcases Builder.placed_of_get?_codeToSource known with ⟨instruction, placed⟩
  rcases (mem_placements_ofClasses_iff style).1 placed with ⟨method, position, stands, -⟩
  exact ⟨method, position, stands, (sourceLine?_ofClasses stands style).symm.trans found⟩

theorem nearestLineNumber?_eq_lineNumber {method : Method} {position : Nat}
    {instruction : Instruction} (isShown : method.instructions[position]? = some instruction)
    {sourceLine : Nat} (isFrom : instruction.lineNumber = some sourceLine) :
    method.nearestLineNumber? position = some sourceLine := by
  simp [Method.nearestLineNumber?, List.take_add_one, isShown, isFrom]

/-- The source maps of a listing. A line of a listing shows an instruction when one stands on it,
and a line of the source is known by the line of the last instruction that comes from it; a line of
code is known by the nearest source line of its instruction, in the method of that. -/
theorem sourceMaps_ofClasses (classes : List Class) (style : Style) :
    (∀ line shown,
      (∃ callee, (Row.ofClasses classes)[line]? = some (.instruction shown callee)) ↔
        ∃ method position, StandsOn classes line method position ∧
          method.instructions[position]? = some shown) ∧
      MapsSource classes (ofClasses classes style) := by
  refine ⟨fun line shown => row_iff_standsOn, ?_⟩
  constructor
  case codeLine => exact fun sourceLine line => codeLine?_ofClasses_eq_some_iff
  case noCodeLine => exact fun sourceLine => codeLine?_ofClasses_eq_none_iff
  case sourceLine =>
    intro line sourceLine
    refine ⟨exists_standsOn_of_sourceLine?, ?_⟩
    rintro ⟨method, position, stands, isNearest⟩
    rw [sourceLine?_ofClasses stands, isNearest]
  case ofInstruction => exact fun line method position stands => sourceLine?_ofClasses stands style
  case ofOtherRow =>
    intro line noInstruction
    by_contra found
    rcases Option.ne_none_iff_exists'.1 found with ⟨sourceLine, found⟩
    rcases exists_standsOn_of_sourceLine? found with ⟨method, position, stands, -⟩
    rcases row_iff_standsOn.2 ⟨method, position, stands, List.getElem?_eq_getElem stands.1⟩ with
      ⟨callee, row⟩
    exact noInstruction ⟨_, callee, row⟩
  case roundTrip =>
    intro sourceLine line found
    rcases codeLine?_ofClasses_eq_some_iff.1 found with
      ⟨⟨method, position, instruction, stands, isShown, isFrom⟩, -⟩
    rw [sourceLine?_ofClasses stands, nearestLineNumber?_eq_lineNumber isShown isFrom]

end Listing

end CompiledViews
