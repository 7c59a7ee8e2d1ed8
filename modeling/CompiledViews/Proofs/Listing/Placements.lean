import CompiledViews.Proofs.Listing.Calls
import CompiledViews.Proofs.NatMap
import Mathlib.Data.List.Induction
import Mathlib.Data.List.Nodup

/-!
# Where instructions are placed

Of all calls only `addInstruction` is about a line that the maps of a listing may name. The
placements of calls are these lines with their instructions, in order.
-/

namespace CompiledViews.Listing

namespace Call

/-- The instruction that a call places on a line, if it places one. -/
def placement? (line : Nat) : Call → Option (Nat × Instruction)
  | addInstruction instruction _ => some (line, instruction)
  | _ => none

/-- The instructions that calls place from a line on, each with its line. -/
def placements (style : Style) : (line : Nat) → List Call → List (Nat × Instruction)
  | _, [] => []
  | line, call :: calls =>
    (call.placement? line).toList ++ placements style (line + (call.lines style).length) calls

@[simp]
theorem placements_append (style : Style) (line : Nat) (left right : List Call) :
    placements style line (left ++ right) =
      placements style line left ++ placements style (line + lineAfter style left) right := by
  induction left generalizing line with
  | nil => simp [placements, lineAfter]
  | cons call left ih => simp [placements, ih, lineAfter, Nat.add_assoc]

theorem line_bounds_of_mem_placements {style : Style} {first line : Nat} {calls : List Call}
    {instruction : Instruction} (placed : (line, instruction) ∈ placements style first calls) :
    first ≤ line ∧ line < first + lineAfter style calls := by
  induction calls generalizing first with
  | nil => simp [placements] at placed
  | cons call calls ih =>
      rcases List.mem_append.1 placed with here | later
      · cases call <;> simp [placement?] at here
        rcases here with ⟨rfl, rfl⟩
        simp [lineAfter, lines]
      · have bounds := ih later
        simp only [lineAfter, allLines_cons, List.length_append] at bounds ⊢
        omega

/-- Instructions are placed on lines that go up. -/
theorem placements_ascending (style : Style) (first : Nat) (calls : List Call) :
    (placements style first calls).Pairwise fun left right => left.1 < right.1 := by
  induction calls generalizing first with
  | nil => exact .nil
  | cons call calls ih =>
      refine List.pairwise_append.2 ⟨by cases call <;> simp [placement?], ih _, ?_⟩
      intro here isHere later isLater
      have after := (line_bounds_of_mem_placements isLater).1
      cases call <;> simp [placement?] at isHere
      subst isHere
      simp only [lines, List.length_singleton] at after
      omega

/-- On a line one instruction is placed at most. -/
theorem eq_of_mem_placements {style : Style} {first line : Nat} {calls : List Call}
    {instruction other : Instruction} (placed : (line, instruction) ∈ placements style first calls)
    (otherPlaced : (line, other) ∈ placements style first calls) : other = instruction := by
  have distinct : ((placements style first calls).map (·.1)).Nodup :=
    List.pairwise_map.2 ((placements_ascending style first calls).imp Nat.ne_of_lt)
  exact congrArg Prod.snd (List.inj_on_of_nodup_map distinct otherPlaced placed rfl)

/-- The instruction that a call is about, if it is about one. -/
def instruction? : Call → Option Instruction
  | addInstruction instruction _ => some instruction
  | _ => none

/-- The instructions are placed in the order of the calls. -/
theorem map_snd_placements (style : Style) (first : Nat) (calls : List Call) :
    (placements style first calls).map (·.2) = calls.filterMap instruction? := by
  induction calls generalizing first with
  | nil => rfl
  | cons call calls ih =>
      cases call <;> simp [placements, placement?, instruction?, List.filterMap_cons, ih]

/-- The instructions that a listing places are those of its methods, in order. -/
theorem map_snd_placements_ofClasses (style : Style) (classes : List Class) :
    (placements style 0 (ofClasses classes)).map (·.2) =
      (classes.flatMap (·.methods)).flatMap (·.instructions) := by
  have ofMethod_eq (byIndex : NatMap (NatMap Text)) (method : Method) :
      (ofMethod byIndex method).filterMap instruction? = method.instructions := by
    simp [ofMethod, ofInstructions, instruction?, List.filterMap_cons, List.filterMap_map,
      Function.comp_def]
  have ofClass_eq (byIndex : NatMap (NatMap Text)) (cls : Class) :
      (ofClass byIndex cls).filterMap instruction? = cls.methods.flatMap (·.instructions) := by
    simp [ofClass, instruction?, List.filterMap_cons, List.filterMap_flatMap, ofMethod_eq]
  rw [map_snd_placements, ofClasses, List.filterMap_flatMap, List.flatMap_assoc]
  simp only [ofClass_eq]

/-- An instruction is placed on a line by a call that is made when that line is next. -/
theorem mem_placements_iff {style : Style} {first line : Nat} {calls : List Call}
    {instruction : Instruction} :
    (line, instruction) ∈ placements style first calls ↔
      ∃ before callee after, calls = before ++ addInstruction instruction callee :: after ∧
        line = first + lineAfter style before := by
  constructor
  · intro placed
    induction calls generalizing first with
    | nil => simp [placements] at placed
    | cons call calls ih =>
        rcases List.mem_append.1 placed with here | later
        · cases call with
          | addInstruction placedInstruction callee =>
              obtain ⟨rfl, rfl⟩ := by simpa [placement?] using here
              exact ⟨[], callee, calls, rfl, rfl⟩
          | _ => simp [placement?] at here
        · rcases ih later with ⟨before, callee, after, rfl, rfl⟩
          exact ⟨call :: before, callee, after, rfl, by simp [lineAfter, Nat.add_assoc]⟩
  · rintro ⟨before, callee, after, rfl, rfl⟩
    simp [placements, placement?]

end Call

/-- The line of the last one of placed instructions that is as wanted. -/
def lastLine? (wanted : Instruction → Bool) (placed : List (Nat × Instruction)) : Option Nat :=
  (placed.filter fun place => wanted place.2).getLast?.map (·.1)

theorem lastLine?_concat (wanted : Instruction → Bool) (placed : List (Nat × Instruction))
    (line : Nat) (instruction : Instruction) :
    lastLine? wanted (placed ++ [(line, instruction)]) =
      if wanted instruction then some line else lastLine? wanted placed := by
  by_cases isWanted : wanted instruction <;> simp [lastLine?, isWanted]

theorem exists_of_lastLine? {wanted : Instruction → Bool} {placed : List (Nat × Instruction)}
    {line : Nat} (found : lastLine? wanted placed = some line) :
    ∃ instruction, (line, instruction) ∈ placed ∧ wanted instruction = true := by
  rcases Option.map_eq_some_iff.1 found with ⟨⟨_, instruction⟩, isLast, rfl⟩
  exact ⟨instruction, List.mem_filter.1 (List.mem_of_getLast? isLast)⟩

theorem lastLine?_eq_none_iff {wanted : Instruction → Bool} {placed : List (Nat × Instruction)} :
    lastLine? wanted placed = none ↔ ∀ place ∈ placed, ¬wanted place.2 := by
  simp [lastLine?]

theorem le_of_lastLine? {wanted : Instruction → Bool} {placed : List (Nat × Instruction)}
    (ascending : placed.Pairwise fun left right => left.1 < right.1) {line other : Nat}
    {instruction : Instruction} (found : lastLine? wanted placed = some line)
    (member : (other, instruction) ∈ placed) (isWanted : wanted instruction) : other ≤ line := by
  induction placed using List.reverseRecOn with
  | nil => simp at member
  | append_singleton placed last ih =>
      obtain ⟨ascending, -, below⟩ := List.pairwise_append.1 ascending
      rw [lastLine?_concat] at found
      split at found
      case isTrue _ =>
        obtain rfl := Option.some.inj found
        rcases List.mem_append.1 member with earlier | same
        · exact Nat.le_of_lt (below _ earlier _ List.mem_cons_self)
        · exact Nat.le_of_eq (congrArg Prod.fst (List.mem_singleton.1 same))
      case isFalse unwanted =>
        rcases List.mem_append.1 member with earlier | same
        · exact ih ascending found earlier
        · rw [← List.mem_singleton.1 same] at unwanted
          exact absurd isWanted unwanted

/-- On lines that go up the last instruction is the one on the greatest line. -/
theorem lastLine?_eq_some_iff {wanted : Instruction → Bool} {placed : List (Nat × Instruction)}
    (ascending : placed.Pairwise fun left right => left.1 < right.1) {line : Nat} :
    lastLine? wanted placed = some line ↔
      (∃ instruction, (line, instruction) ∈ placed ∧ wanted instruction) ∧
        ∀ other instruction, (other, instruction) ∈ placed → wanted instruction → other ≤ line := by
  constructor
  · intro found
    exact ⟨exists_of_lastLine? found, fun _ _ => le_of_lastLine? ascending found⟩
  · rintro ⟨⟨instruction, isPlaced, isWanted⟩, greatest⟩
    cases found : lastLine? wanted placed with
    | none => exact absurd isWanted (lastLine?_eq_none_iff.1 found _ isPlaced)
    | some last =>
        obtain ⟨lastInstruction, lastPlaced, lastWanted⟩ := exists_of_lastLine? found
        have above := greatest last lastInstruction lastPlaced lastWanted
        have below := le_of_lastLine? ascending found isPlaced isWanted
        rw [Nat.le_antisymm above below]

namespace Builder

/-- A line of the source is known by the last instruction that comes from it. -/
theorem get?_sourceToCode_performAll (style : Style) (calls : List Call) (sourceLine : Nat) :
    ((new style).performAll calls).sourceToCode.get? sourceLine =
      lastLine? (·.lineNumber == some sourceLine) (Call.placements style 0 calls) := by
  induction calls using List.reverseRecOn with
  | nil => rfl
  | append_singleton calls call ih =>
      have line_eq := line_performAll_new style calls
      rw [performAll_append, Call.placements_append]
      generalize (new style).performAll calls = builder at ih line_eq
      cases call with
      | addInstruction instruction callee =>
          simp only [performAll_cons, performAll_nil, perform, addInstruction, Call.placements,
            Call.placement?, Option.toList_some, List.append_nil, Nat.zero_add,
            lastLine?_concat, line_eq, ← ih]
          cases instruction.lineNumber with
          | none => simp
          | some number =>
              rw [NatMap.get?_insert]
              by_cases same : sourceLine = number
              · simp [same]
              · simp [same, Ne.symm same]
      | _ => simpa [perform, startClass, startMethod, foldl_write, write, endMethod,
          Call.placements, Call.placement?] using ih

/-- Only lines of instructions come from a line of the source. -/
theorem placed_of_get?_codeToSource {style : Style} {calls : List Call} {line sourceLine : Nat}
    (found : ((new style).performAll calls).codeToSource.get? line = some sourceLine) :
    ∃ instruction, (line, instruction) ∈ Call.placements style 0 calls := by
  induction calls using List.reverseRecOn with
  | nil => simp [new] at found
  | append_singleton calls call ih =>
      have line_eq := line_performAll_new style calls
      rw [performAll_append] at found
      rw [Call.placements_append]
      generalize (new style).performAll calls = builder at ih line_eq found
      have earlier (known : builder.codeToSource.get? line = some sourceLine) :
          ∃ instruction, (line, instruction) ∈ Call.placements style 0 calls ++
            Call.placements style (0 + Call.lineAfter style calls) [call] := by
        rcases ih known with ⟨instruction, placed⟩
        exact ⟨instruction, List.mem_append_left _ placed⟩
      cases call with
      | addInstruction instruction callee =>
          simp only [performAll_cons, performAll_nil, perform, addInstruction] at found
          split at found
          case h_1 number _ =>
            rw [NatMap.get?_insert] at found
            split at found
            case isTrue here =>
              exact ⟨instruction, by simp [Call.placements, Call.placement?, here, line_eq]⟩
            case isFalse _ => exact earlier found
          case h_2 _ => exact earlier found
      | _ =>
          apply earlier
          simpa [perform, startClass, startMethod, foldl_write, write, endMethod] using found

end Builder

end CompiledViews.Listing
