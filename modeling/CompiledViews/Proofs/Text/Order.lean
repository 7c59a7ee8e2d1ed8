import CompiledViews.Text.Order
import Mathlib.Data.List.Lex

/-!
# Sorted texts

The order of texts is the lexicographic one of the code points of their characters, so different
texts come one after the other once they are sorted.
-/

namespace CompiledViews.Text

variable {left right : Text} {texts : List Text}

theorem precedes_iff_lt :
    precedes left right = true ↔ left.map Char.toNat < right.map Char.toNat := by
  induction left generalizing right with
  | nil => cases right <;> simp [precedes]
  | cons first left ih =>
      cases right with
      | nil => simp [precedes]
      | cons second right => simp [precedes, ih, List.cons_lt_cons_iff]

theorem toNat_injective : Function.Injective Char.toNat :=
  fun _ _ same => Char.ext (UInt32.toNat_inj.1 same)

theorem notAfter_iff_le :
    notAfter left right = true ↔ left.map Char.toNat ≤ right.map Char.toNat := by
  rw [notAfter, Bool.not_eq_true', Bool.eq_false_iff, Ne, precedes_iff_lt, not_lt]

theorem mem_sort {text : Text} : text ∈ sort texts ↔ text ∈ texts := List.mem_mergeSort

theorem pairwise_notAfter_sort (texts : List Text) :
    (sort texts).Pairwise fun left right => notAfter left right = true := by
  apply List.pairwise_mergeSort
  · intro first second third before later
    rw [notAfter_iff_le] at before later ⊢
    exact le_trans before later
  · intro first second
    rw [Bool.or_eq_true, notAfter_iff_le, notAfter_iff_le]
    exact le_total _ _

/-- Texts of which none comes twice are in strict order once they are sorted. -/
theorem pairwise_precedes_sort (distinct : texts.Nodup) :
    (sort texts).Pairwise fun left right => precedes left right = true := by
  have distinctSorted : (sort texts).Nodup :=
    (List.mergeSort_perm texts notAfter).nodup_iff.2 distinct
  refine ((pairwise_notAfter_sort texts).and distinctSorted).imp ?_
  rintro first second ⟨before, different⟩
  rw [notAfter_iff_le] at before
  rw [precedes_iff_lt]
  exact lt_of_le_of_ne before fun same => different (toNat_injective.list_map same)

/-- The last one of sorted texts is one of them, and comes before none. -/
theorem notAfter_of_getLast?_sort {last : Text} (isLast : (sort texts).getLast? = some last) :
    last ∈ texts ∧ ∀ text ∈ texts, notAfter text last = true := by
  rcases List.getLast?_eq_some_iff.1 isLast with ⟨front, isSorted⟩
  have ordered := pairwise_notAfter_sort texts
  rw [isSorted, List.pairwise_append] at ordered
  refine ⟨mem_sort.1 (List.mem_of_getLast? isLast), fun text member => ?_⟩
  rw [← mem_sort, isSorted, List.mem_append, List.mem_singleton] at member
  rcases member with before | rfl
  · exact ordered.2.2 text before last List.mem_cons_self
  · rw [notAfter_iff_le]

end CompiledViews.Text
