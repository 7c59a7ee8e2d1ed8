import CompiledViews.Proofs.Text.SingleLine

/-!
# Printable texts

What a listing says of its own accord is put together from words, numbers and spaces, and so from
printable characters of ASCII only. Neither a line feed nor the arrow of a call is one of these.
-/

namespace CompiledViews.Text

/-- A text of printable characters of ASCII. -/
def IsPrintable (text : Text) : Prop := ∀ character ∈ text, ' ' ≤ character ∧ character ≤ '~'

instance (text : Text) : Decidable text.IsPrintable :=
  inferInstanceAs (Decidable (∀ character ∈ text, ' ' ≤ character ∧ character ≤ '~'))

namespace IsPrintable

theorem notMem {text : Text} (printable : text.IsPrintable) {character : Char}
    (other : ¬(' ' ≤ character ∧ character ≤ '~')) : character ∉ text :=
  fun member => other (printable character member)

theorem singleLine {text : Text} (printable : text.IsPrintable) : text.SingleLine :=
  printable.notMem (by decide)

@[simp]
theorem nil : IsPrintable [] := by simp [IsPrintable]

@[simp]
theorem cons_iff {character : Char} {text : Text} :
    IsPrintable (character :: text) ↔
      (' ' ≤ character ∧ character ≤ '~') ∧ text.IsPrintable := by
  simp [IsPrintable]

@[simp]
theorem append_iff {left right : Text} :
    (left ++ right).IsPrintable ↔ left.IsPrintable ∧ right.IsPrintable :=
  List.forall_mem_append

@[simp]
theorem spaces (count : Nat) : (Text.spaces count).IsPrintable := fun character member => by
  rw [List.eq_of_mem_replicate member]
  decide

@[simp]
theorem padRight_iff {width : Nat} {text : Text} :
    (padRight width text).IsPrintable ↔ text.IsPrintable := by
  simp [padRight]

@[simp]
theorem ofNat (number : Nat) : (Text.ofNat number).IsPrintable := fun character member => by
  have isDigit := Nat.isDigit_of_mem_toDigits (by decide) (by decide) member
  simp only [Char.isDigit, Bool.and_eq_true, decide_eq_true_eq, ge_iff_le] at isDigit
  exact ⟨UInt32.le_trans (by decide) isDigit.1, UInt32.le_trans isDigit.2 (by decide)⟩

end IsPrintable

end CompiledViews.Text
