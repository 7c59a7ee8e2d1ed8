import CompiledViews.Proofs.Text.Parts
import Mathlib.Data.List.Infix

/-!
# Taking a word out of a text

Taking a word out of a text leaves the pieces between its occurrences. A scan from the left finds
such pieces for any word, and where the first character of the word occurs in it only once, there
are no others: two occurrences of such a word cannot overlap.
-/

namespace CompiledViews.Text

/-- A text is cut into pieces by a word: it is the pieces in order with the word between neighbours,
and no piece holds the word. -/
def CutInto (word text : Text) (pieces : List Text) : Prop :=
  pieces ≠ [] ∧ join word pieces = text ∧ ∀ piece ∈ pieces, ¬word <:+: piece

/-- What is left of a text that a word is taken out of. -/
def LeavesWithout (word text rest : Text) : Prop :=
  ∃ pieces, CutInto word text pieces ∧ pieces.flatten = rest

section scan

variable {word text : Text}

theorem removeAllFrom_eq (word : Text) (skip : Nat) (text : Text) :
    removeAllFrom word skip text = removeAll word (text.drop skip) := by
  induction text generalizing skip with
  | nil => simp [removeAll, removeAllFrom]
  | cons head text ih =>
      cases skip with
      | zero => rfl
      | succ skip => rw [removeAllFrom, ih, List.drop_succ_cons]

theorem removeAll_append (nonempty : word ≠ []) (text : Text) :
    removeAll word (word ++ text) = removeAll word text := by
  obtain ⟨first, others, rfl⟩ := List.exists_cons_of_ne_nil nonempty
  have here : (first :: others).isPrefixOf (first :: (others ++ text)) = true :=
    List.isPrefixOf_iff_prefix.2 (List.prefix_append (first :: others) text)
  rw [removeAll, List.cons_append, removeAllFrom, if_pos here, removeAllFrom_eq]
  simp

theorem removeAll_cons {head : Char} (elsewhere : ¬word <+: head :: text) :
    removeAll word (head :: text) = head :: removeAll word text := by
  rw [removeAll, removeAllFrom, if_neg (mt List.isPrefixOf_iff_prefix.1 elsewhere)]
  rfl

theorem CutInto.nil (nonempty : word ≠ []) : CutInto word [] [[]] :=
  ⟨List.cons_ne_nil _ _, rfl, by simpa using nonempty⟩

/-- A word in front of a text cuts off an empty piece. -/
theorem CutInto.append {pieces : List Text} (cut : CutInto word text pieces)
    (nonempty : word ≠ []) : CutInto word (word ++ text) ([] :: pieces) := by
  obtain ⟨some, joined, free⟩ := cut
  obtain ⟨first, others, rfl⟩ := List.exists_cons_of_ne_nil some
  refine ⟨List.cons_ne_nil _ _, ?_, List.forall_mem_cons.2 ⟨by simpa using nonempty, free⟩⟩
  rw [join, joined, List.nil_append]

/-- A character in front of a text goes to its first piece, unless it begins the word. -/
theorem CutInto.cons {first : Text} {others : List Text} {head : Char}
    (cut : CutInto word text (first :: others)) (elsewhere : ¬word <+: head :: text) :
    CutInto word (head :: text) ((head :: first) :: others) := by
  obtain ⟨-, joined, free⟩ := cut
  obtain ⟨freeFirst, freeOthers⟩ := List.forall_mem_cons.1 free
  have isJoined : join word ((head :: first) :: others) = head :: text := by
    rw [← joined]
    cases others <;> rfl
  refine ⟨List.cons_ne_nil _ _, isJoined, List.forall_mem_cons.2 ⟨?_, freeOthers⟩⟩
  intro occurs
  rcases List.infix_cons_iff.1 occurs with begins | later
  · have isFront : first <+: text := by
      rw [← joined]
      cases others with
      | nil => exact List.prefix_rfl
      | cons next others => exact ⟨word ++ join word (next :: others), by simp [join]⟩
    exact elsewhere (begins.trans ((List.prefix_cons_inj head).2 isFront))
  · exact freeFirst later

/-- The scan leaves the pieces between the occurrences of the word. -/
theorem leavesWithout_removeAll (nonempty : word ≠ []) (text : Text) :
    LeavesWithout word text (removeAll word text) := by
  -- the scan goes on behind an occurrence, so the induction is on how much is left of the text
  induction size : text.length using Nat.strong_induction_on generalizing text with
  | _ size ih =>
      subst size
      by_cases begins : word <+: text
      · obtain ⟨rest, rfl⟩ := begins
        have isShorter : rest.length < (word ++ rest).length := by
          simpa using List.length_pos_iff.2 nonempty
        obtain ⟨pieces, cut, isLeft⟩ := ih rest.length isShorter rest rfl
        exact ⟨[] :: pieces, cut.append nonempty, by rw [removeAll_append nonempty, ← isLeft]; rfl⟩
      · cases text with
        | nil => exact ⟨[[]], .nil nonempty, rfl⟩
        | cons head text =>
            obtain ⟨pieces, cut, isLeft⟩ := ih text.length (Nat.lt_succ_self _) text rfl
            obtain ⟨first, others, rfl⟩ := List.exists_cons_of_ne_nil cut.1
            refine ⟨_, cut.cons begins, ?_⟩
            rw [removeAll_cons begins, ← isLeft]
            rfl

theorem length_join (word : Text) {pieces : List Text} (nonempty : pieces ≠ []) :
    (join word pieces).length + word.length =
      pieces.flatten.length + pieces.length * word.length := by
  induction pieces with
  | nil => exact absurd rfl nonempty
  | cons piece pieces ih =>
      rcases pieces with _ | ⟨next, pieces⟩
      · simp [join]
      · have others := ih (List.cons_ne_nil _ _)
        simp only [join, List.length_append, List.flatten_cons, List.length_cons] at others ⊢
        grind

/-- The scan leaves a text as it is exactly if the word does not occur in it. -/
theorem removeAll_eq_self_iff (nonempty : word ≠ []) :
    removeAll word text = text ↔ ¬word <:+: text := by
  constructor
  · intro unchanged
    obtain ⟨pieces, ⟨some, joined, free⟩, isLeft⟩ := leavesWithout_removeAll nonempty text
    have lengths := length_join word some
    rw [joined, isLeft, unchanged, Nat.add_right_inj] at lengths
    have isOne : pieces.length = 1 :=
      Nat.eq_of_mul_eq_mul_right (List.length_pos_iff.2 nonempty) (by rw [← lengths, Nat.one_mul])
    obtain ⟨piece, rfl⟩ := List.length_eq_one_iff.1 isOne
    rw [← joined]
    exact free piece List.mem_cons_self
  · intro absent
    induction text with
    | nil => rfl
    | cons head text ih =>
        obtain ⟨notHere, notLater⟩ := not_or.1 (mt List.infix_cons_iff.2 absent)
        rw [removeAll_cons notHere, ih notLater]

end scan

section unique

variable {first : Char} {tail : Text}

/-- What stands before the first occurrence of a word does not depend on how the text is cut, if the
word cannot overlap itself. -/
theorem eq_nil_of_append_eq (once : first ∉ tail) {gap left right : Text}
    (free : ¬first :: tail <:+: gap)
    (split : first :: tail ++ left = gap ++ (first :: tail ++ right)) : gap = [] := by
  rcases gap with _ | ⟨head, gap⟩
  · rfl
  obtain ⟨rfl, later⟩ : first = head ∧ tail ++ left = gap ++ (first :: tail ++ right) := by
    simpa using split
  rcases List.append_eq_append_iff.1 later with ⟨more, rfl, -⟩ | ⟨more, rfl, isRight⟩
  · exact absurd ⟨[], more, by simp⟩ free
  · -- the occurrence behind the gap begins within the one at the front
    rcases more with _ | ⟨next, more⟩
    · exact absurd ⟨[], [], by simp⟩ free
    · obtain rfl : first = next := (List.cons.inj isRight).1
      exact absurd (by simp) once

theorem CutInto.unique (once : first ∉ tail) {text : Text} {pieces others : List Text}
    (cut : CutInto (first :: tail) text pieces) (other : CutInto (first :: tail) text others) :
    others = pieces := by
  obtain ⟨some, joined, free⟩ := cut
  obtain ⟨someOther, otherJoined, otherFree⟩ := other
  induction pieces generalizing text others with
  | nil => exact absurd rfl some
  | cons piece pieces ih =>
      obtain ⟨otherPiece, others, rfl⟩ := List.exists_cons_of_ne_nil someOther
      obtain ⟨freePiece, freePieces⟩ := List.forall_mem_cons.1 free
      obtain ⟨freeOther, freeOthers⟩ := List.forall_mem_cons.1 otherFree
      rcases pieces with _ | ⟨next, pieces⟩ <;> rcases others with _ | ⟨otherNext, others⟩
      · rw [← show piece = text from joined] at otherJoined
        rw [show otherPiece = piece from otherJoined]
      · refine absurd ⟨otherPiece, join (first :: tail) (otherNext :: others), ?_⟩ freePiece
        rw [show piece = text from joined, ← otherJoined]
        rfl
      · refine absurd ⟨piece, join (first :: tail) (next :: pieces), ?_⟩ freeOther
        rw [show otherPiece = text from otherJoined, ← joined]
        rfl
      · rw [join, List.append_assoc] at joined otherJoined
        obtain rfl : otherPiece = piece := by
          rcases List.append_eq_append_iff.1 (joined.trans otherJoined.symm) with
            ⟨gap, rfl, split⟩ | ⟨gap, rfl, split⟩
          · have within : gap <:+: piece ++ gap := (List.suffix_append ..).isInfix
            simp [eq_nil_of_append_eq once (fun occurs => freeOther (occurs.trans within)) split]
          · have within : gap <:+: otherPiece ++ gap := (List.suffix_append ..).isInfix
            simp [eq_nil_of_append_eq once (fun occurs => freePiece (occurs.trans within)) split]
        have rest := List.append_cancel_left
          (List.append_cancel_left (otherJoined.trans joined.symm))
        rw [ih (List.cons_ne_nil _ _) rfl freePieces (List.cons_ne_nil _ _) rest freeOthers]

/-- A word that cannot overlap itself leaves what the scan leaves, and nothing else. -/
theorem leavesWithout_iff (once : first ∉ tail) {text rest : Text} :
    LeavesWithout (first :: tail) text rest ↔ rest = removeAll (first :: tail) text := by
  have scanned := leavesWithout_removeAll (List.cons_ne_nil first tail) text
  constructor
  · rintro ⟨pieces, cut, rfl⟩
    obtain ⟨others, other, isLeft⟩ := scanned
    rw [← isLeft, cut.unique once other]
  · rintro rfl
    exact scanned

end unique

end CompiledViews.Text
