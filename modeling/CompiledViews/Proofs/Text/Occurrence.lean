import CompiledViews.Proofs.Text.Form
import CompiledViews.Proofs.Text.SingleLine

/-!
# Occurrences of a mark

A form that reads up to a mark reads up to each of its occurrences, later ones first. Where the mark
occurs once, there is one reading.
-/

namespace CompiledViews.Text

theorem takeWhile_append_of_head {α : Type} {property : α → Bool} {right : List α}
    (stops : ∀ head ∈ right.head?, property head = false) (left : List α) :
    (left ++ right).takeWhile property = left.takeWhile property := by
  induction left with
  | nil => cases right <;> simp_all
  | cons head left ih => simp [List.takeWhile_cons, ih]

/-- What begins with an element that a list lacks occurs, if at all, behind that list. -/
theorem infix_of_infix_append {α : Type} {head : α} {tail left right : List α}
    (absent : head ∉ left) (occurs : head :: tail <:+: left ++ right) :
    head :: tail <:+: right := by
  induction left with
  | nil => exact occurs
  | cons other left ih =>
      rw [List.mem_cons, not_or] at absent
      rcases List.infix_cons_iff.1 occurs with here | later
      · exact absurd (List.cons_prefix_cons.1 here).1 absent.1
      · exact ih absent.2 later

/-- What lacks the last element of a list occurs, if at all, before it. -/
theorem infix_of_infix_concat {α : Type} {last : α} {part whole : List α} (absent : last ∉ part)
    (occurs : part <:+: whole ++ [last]) : part <:+: whole := by
  rcases List.infix_concat_iff.1 occurs with atEnd | earlier
  · rcases List.suffix_concat_iff.1 atEnd with rfl | ⟨front, rfl, -⟩
    · exact List.nil_infix
    · simp at absent
  · exact earlier

/-- A word between two spaces that is found neither in what stands before it nor in what stands
after it, these spaces included, is found in one place. -/
theorem word_once {α : Type} {space : α} {word before after other left : List α}
    (noSpace : space ∉ word) (notBefore : ¬space :: word ++ [space] <:+: before ++ [space])
    (notAfter : ¬space :: word ++ [space] <:+: space :: after)
    (split :
      before ++ (space :: word ++ space :: after) = other ++ (space :: word ++ space :: left)) :
    other = before := by
  rcases List.append_eq_append_iff.1 split with ⟨between, rfl, here⟩ | ⟨between, rfl, here⟩
  · rcases between with _ | ⟨head, between⟩
    · simp
    · have occurs : space :: word ++ [space] <:+: word ++ space :: after :=
        ⟨between, left, by simp_all⟩
      exact absurd (infix_of_infix_append noSpace occurs) notAfter
  · rcases between with _ | ⟨head, between⟩
    · simp
    · obtain ⟨rfl, later⟩ : space = head ∧
          word ++ space :: left = between ++ space :: (word ++ space :: after) := by
        simpa using here
      refine absurd ?_ notBefore
      rcases List.append_eq_append_iff.1 later with ⟨more, rfl, last⟩ | ⟨more, rfl, last⟩
      · rcases more with _ | ⟨next, more⟩
        · exact ⟨other, [], by simp⟩
        · obtain rfl : space = next := (List.cons.inj last).1
          exact ⟨other, more ++ [space], by simp⟩
      · rcases more with _ | ⟨next, more⟩
        · exact ⟨other, [], by simp⟩
        · obtain rfl : space = next := (List.cons.inj last).1
          simp at noSpace

namespace Form

/-- The characters of a text in one line can all stand in a line. -/
theorem anyInLine_of_mem {text : Text} (single : text.SingleLine) :
    ∀ character ∈ text, anyInLine character = true := by
  intro character member
  have inLine : character ≠ '\n' := fun isFeed => single (isFeed ▸ member)
  simpa [anyInLine] using inLine

variable {isMember : Char → Bool}

/-- The readings of a text up to a mark are those of an end of it, and before them come none but
those that end within what the text begins with. -/
theorem upTo_append {left : Text} (members : ∀ character ∈ left, isMember character = true)
    (mark rest : Text) :
    ∃ shorter, upTo isMember mark (left ++ rest) =
        (upTo isMember mark rest).map (fun reading => (left ++ reading.1, reading.2)) ++ shorter ∧
      ∀ reading ∈ shorter, reading.1.length < left.length := by
  induction left with
  | nil => exact ⟨[], by simp, by simp⟩
  | cons head left ih =>
      obtain ⟨isHere, others⟩ := List.forall_mem_cons.1 members
      obtain ⟨shorter, readings, isShorter⟩ := ih others
      rw [List.cons_append, upTo, if_pos isHere, readings, List.map_append, List.append_assoc,
        List.map_map]
      refine ⟨_, rfl, fun reading member => ?_⟩
      rcases List.mem_append.1 member with later | here
      · rcases List.mem_map.1 later with ⟨other, isOther, rfl⟩
        simpa using isShorter other isOther
      · split at here
        · rcases List.mem_singleton.1 here with rfl
          simp
        · cases here

/-- Before the reading of a text up to an occurrence of a mark come those up to later ones, which
begin within the mark or behind it. -/
theorem exists_upTo_eq {first : Char} {mark left : Text}
    (members : ∀ character ∈ left, isMember character = true) (right : Text) :
    ∃ later shorter, upTo isMember (first :: mark) (left ++ (first :: mark ++ right)) =
        later ++ (left, right) :: shorter ∧
      ∀ reading ∈ later, ∃ taken, mark ++ right = taken ++ (first :: mark ++ reading.2) := by
  obtain ⟨shorter, readings, -⟩ := upTo_append members (first :: mark) (first :: mark ++ right)
  have here : after? (first :: mark) (first :: (mark ++ right)) = some right :=
    after?_eq_some_iff.2 rfl
  rw [List.cons_append, upTo, here, List.map_append, List.append_assoc] at readings
  refine ⟨_, shorter, by simpa using readings, fun reading member => ?_⟩
  obtain ⟨inner, isInner, rfl⟩ := List.mem_map.1 member
  split at isInner
  · obtain ⟨⟨taken, rest⟩, isTaken, rfl⟩ := List.mem_map.1 isInner
    exact ⟨taken, mem_upTo isTaken⟩
  · cases isInner

/-- The same where at least one character is read before the mark. -/
theorem exists_somethingUpTo_eq (first : Char) (mark : Text) {left : Text} (nonempty : left ≠ [])
    (single : left.SingleLine) (right : Text) :
    ∃ later shorter, somethingUpTo (first :: mark) (left ++ (first :: mark ++ right)) =
        later ++ (left, right) :: shorter ∧
      ∀ reading ∈ later, ∃ taken, mark ++ right = taken ++ (first :: mark ++ reading.2) := by
  obtain ⟨head, others, rfl⟩ := List.exists_cons_of_ne_nil nonempty
  obtain ⟨isHere, members⟩ := List.forall_mem_cons.1 (anyInLine_of_mem single)
  obtain ⟨later, shorter, readings, isLater⟩ := exists_upTo_eq members right
  let behind (reading : Text × Text) : Text × Text := (head :: reading.1, reading.2)
  have whole : somethingUpTo (first :: mark) (head :: (others ++ (first :: mark ++ right))) =
      (upTo anyInLine (first :: mark) (others ++ (first :: mark ++ right))).map behind := by
    rw [somethingUpTo, andThen, one, if_pos isHere, List.flatMap_singleton, List.map_eq_flatMap]
    rfl
  refine ⟨later.map behind, shorter.map behind, ?_, fun reading member => ?_⟩
  · rw [List.cons_append, whole, readings, List.map_append, List.map_cons]
  · obtain ⟨other, isOther, rfl⟩ := List.mem_map.1 member
    exact isLater other isOther

/-- A mark that occurs once in a text is read at that place only. -/
theorem upTo_eq_singleton {first : Char} {mark left right : Text}
    (members : ∀ character ∈ left, isMember character = true)
    (once : ∀ other rest, left ++ (first :: mark ++ right) = other ++ (first :: mark ++ rest) →
      other = left) :
    upTo isMember (first :: mark) (left ++ (first :: mark ++ right)) = [(left, right)] := by
  obtain ⟨shorter, readings, isShorter⟩ := upTo_append members (first :: mark)
    (first :: mark ++ right)
  have noShorter : shorter = [] := by
    rw [List.eq_nil_iff_forall_not_mem]
    intro reading member
    have isReading : reading ∈ upTo isMember (first :: mark) (left ++ (first :: mark ++ right)) :=
      readings ▸ List.mem_append_right _ member
    have same := once reading.1 reading.2 (mem_upTo isReading)
    exact absurd (isShorter reading member) (by simp [same])
  have noLater : upTo isMember (first :: mark) (mark ++ right) = [] := by
    rw [List.eq_nil_iff_forall_not_mem]
    intro reading member
    have same := once (left ++ first :: reading.1) reading.2 (by simp [mem_upTo member])
    simp at same
  have here : after? (first :: mark) (first :: (mark ++ right)) = some right :=
    after?_eq_some_iff.2 rfl
  rw [readings, noShorter, List.cons_append, upTo, noLater, here]
  simp

/-- The first reading of a text that ends in a mark takes all that stands before it. -/
theorem upTo_append_mark {first : Char} {mark left : Text}
    (members : ∀ character ∈ left, isMember character = true) :
    ∃ shorter, upTo isMember (first :: mark) (left ++ first :: mark) = (left, []) :: shorter := by
  obtain ⟨shorter, readings, -⟩ := upTo_append members (first :: mark) (first :: mark)
  have noLater : upTo isMember (first :: mark) mark = [] := by
    rw [List.eq_nil_iff_forall_not_mem]
    intro reading member
    have longer := congrArg List.length (mem_upTo member)
    simp at longer
    omega
  have here : after? (first :: mark) (first :: mark) = some [] := after?_eq_some_iff.2 (by simp)
  rw [upTo, noLater, here] at readings
  exact ⟨shorter, by simpa using readings⟩

end Form

end CompiledViews.Text
