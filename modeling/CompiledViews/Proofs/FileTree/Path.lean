import CompiledViews.FileTree.Basic
import CompiledViews.Proofs.Text.Exact
import CompiledViews.Proofs.Text.Parts
import Mathlib.Data.List.Basic

/-!
# Paths of entries

The path of an entry is that of its directory with one more name. It leads through the same names,
and it is no shorter.
-/

namespace CompiledViews

namespace Text

section splitAll

variable {separator : Char} {text piece : Text}

theorem splitAll_ne_nil : splitAll separator text ≠ [] := by
  cases text with
  | nil => simp [splitAll]
  | cons head text =>
      rw [splitAll]
      split_ifs
      · simp
      · split <;> simp

theorem splitAll_eq_singleton (absent : separator ∉ text) :
    splitAll separator text = [text] := by
  induction text with
  | nil => rfl
  | cons head text ih =>
      rw [List.mem_cons, not_or] at absent
      rw [splitAll, if_neg (Ne.symm absent.1), ih absent.2]

/-- A separator splits a text wherever it stands. -/
theorem splitAll_append_separator (left right : Text) :
    splitAll separator (left ++ separator :: right) =
      splitAll separator left ++ splitAll separator right := by
  induction left with
  | nil => simp [splitAll]
  | cons head left ih =>
      rw [List.cons_append, splitAll, splitAll, ih]
      split_ifs
      · rfl
      · cases pieces : splitAll separator left with
        | nil => exact absurd pieces splitAll_ne_nil
        | cons first others => rfl

theorem not_mem_of_mem_splitAll (member : piece ∈ splitAll separator text) :
    separator ∉ piece := by
  induction text generalizing piece with
  | nil =>
      rw [splitAll, List.mem_singleton] at member
      simp [member]
  | cons head text ih =>
      rw [splitAll] at member
      split_ifs at member with isSeparator
      · rcases List.mem_cons.1 member with rfl | later
        · simp
        · exact ih later
      · cases pieces : splitAll separator text with
        | nil => exact absurd pieces splitAll_ne_nil
        | cons first others =>
            simp only [pieces, List.mem_cons] at member
            rcases member with rfl | later
            · rw [List.mem_cons, not_or]
              exact ⟨Ne.symm isSeparator, ih (by simp [pieces])⟩
            · exact ih (by simp [pieces, later])

/-- Pieces without the separator come back from between the separators. -/
theorem splitAll_join {pieces : List Text} (nonempty : pieces ≠ [])
    (absent : ∀ piece ∈ pieces, separator ∉ piece) :
    splitAll separator (join [separator] pieces) = pieces := by
  induction pieces with
  | nil => exact absurd rfl nonempty
  | cons first pieces ih =>
      rw [List.forall_mem_cons] at absent
      cases pieces with
      | nil => exact splitAll_eq_singleton absent.1
      | cons second pieces =>
          have others := ih (List.cons_ne_nil second pieces) absent.2
          rw [join, List.append_assoc, List.singleton_append, splitAll_append_separator, others,
            splitAll_eq_singleton absent.1]
          rfl

end splitAll

section utf8Length

theorem foldl_utf8Size (length : Nat) (text : Text) :
    text.foldl (fun length character => length + character.utf8Size) length =
      length + utf8Length text := by
  induction text generalizing length with
  | nil => rfl
  | cons head text ih =>
      rw [utf8Length, List.foldl_cons, List.foldl_cons, ih, ih (0 + head.utf8Size)]
      omega

theorem utf8Length_append (left right : Text) :
    utf8Length (left ++ right) = utf8Length left + utf8Length right := by
  rw [utf8Length, List.foldl_append, foldl_utf8Size]
  rfl

theorem utf8Length_replicate (count : Nat) (character : Char) :
    utf8Length (List.replicate count character) = count * character.utf8Size := by
  induction count with
  | zero => simp [utf8Length]
  | succ count ih =>
      rw [List.replicate_succ', utf8Length_append, ih, Nat.succ_mul]
      simp [utf8Length]

end utf8Length

end Text

namespace Path

/-- What can be the name of an entry. -/
structure IsEntryName (name : Text) : Prop where
  nonempty : name ≠ []
  noSlash : '/' ∉ name
  noNul : '\x00' ∉ name
  notHere : name ≠ "."
  notAbove : name ≠ ".."
  short : Text.utf8Length name ≤ FileTree.maxNameBytes

instance (name : Text) : Decidable (IsEntryName name) :=
  decidable_of_iff (name ≠ [] ∧ '/' ∉ name ∧ '\x00' ∉ name ∧ name ≠ "." ∧ name ≠ ".." ∧
      Text.utf8Length name ≤ FileTree.maxNameBytes)
    ⟨fun ⟨nonempty, noSlash, noNul, notHere, notAbove, short⟩ =>
      ⟨nonempty, noSlash, noNul, notHere, notAbove, short⟩,
      fun ⟨nonempty, noSlash, noNul, notHere, notAbove, short⟩ =>
      ⟨nonempty, noSlash, noNul, notHere, notAbove, short⟩⟩

variable {directory name path : Text}

theorem noSlash_of_mem_names (member : name ∈ names path) : '/' ∉ name :=
  Text.not_mem_of_mem_splitAll (List.mem_filter.1 member).1

theorem ne_nil_of_mem_names (member : name ∈ names path) : name ≠ [] := by
  simpa using (List.mem_filter.1 member).2

theorem subset_of_mem_names (member : name ∈ names path) : name ⊆ path :=
  (Text.infix_of_mem_splitAll (List.mem_filter.1 member).1).subset

/-- Slashes at the end name nothing. -/
theorem names_append_slashes (path : Text) (count : Nat) :
    names (path ++ List.replicate count '/') = names path := by
  induction count generalizing path with
  | zero => simp
  | succ count ih =>
      have beside : names (path ++ '/' :: List.replicate count '/') =
          names path ++ names ([] ++ List.replicate count '/') := by
        simp [names, Text.splitAll_append_separator]
      rw [List.replicate_succ, beside, ih]
      simp [names, Text.splitAll]

section join

variable (isName : IsEntryName name)

include isName

theorem isAbsolute_eq_false : isAbsolute name = false := by
  have noSlash := isName.noSlash
  cases name with
  | nil => rfl
  | cons head rest =>
      rw [List.mem_cons, not_or] at noSlash
      simp [isAbsolute, Text.startsWith, List.isPrefixOf, noSlash.1]

/-- The path of an entry is that of its directory, perhaps a slash, and the name. -/
theorem join_eq (directory : Text) : (join directory name = directory ++ name ∧
      (directory = [] ∨ ∃ front, directory = front ++ ['/'])) ∨
    join directory name = directory ++ '/' :: name ∧ directory ≠ [] := by
  rw [join, isAbsolute_eq_false isName, if_neg Bool.false_ne_true]
  split_ifs with ends
  · refine .inl ⟨rfl, ends.imp_right fun isSuffix => ?_⟩
    rcases List.isSuffixOf_iff_suffix.1 isSuffix with ⟨front, rfl⟩
    exact ⟨front, rfl⟩
  · rw [not_or] at ends
    exact .inr ⟨by simp, ends.1⟩

theorem names_join : names (join directory name) = names directory ++ [name] := by
  have alone : names name = [name] := by
    simp [names, Text.splitAll_eq_singleton isName.noSlash, isName.nonempty]
  have beside (front : Text) : names (front ++ '/' :: name) = names front ++ [name] := by
    rw [← alone]
    simp [names, Text.splitAll_append_separator]
  rcases join_eq isName directory with ⟨joined, rfl | ⟨front, rfl⟩⟩ | ⟨joined, _⟩
  · rw [joined, List.nil_append, alone]
    rfl
  · have same : names (front ++ ['/']) = names front := by
      simp [names, Text.splitAll_append_separator, Text.splitAll]
    rw [joined, same, List.append_assoc]
    exact beside front
  · rw [joined, beside]

theorem endsWith_join : Text.endsWith (join directory name) "/" = false := by
  have suffix : name <:+ join directory name := by
    rcases join_eq isName directory with ⟨joined, _⟩ | ⟨joined, _⟩
    · exact joined ▸ List.suffix_append directory name
    · exact joined ▸ ⟨directory ++ ['/'], by simp⟩
  rw [Text.endsWith, Bool.eq_false_iff, Ne, List.isSuffixOf_iff_suffix]
  intro endsInSlash
  apply isName.noSlash
  have shorter : ("/" : Text).length ≤ name.length := List.length_pos_iff.2 isName.nonempty
  exact (List.suffix_of_suffix_length_le endsInSlash suffix shorter).subset (by simp)

theorem steps_join : steps (join directory name) = names directory ++ [name] := by
  rw [steps, endsWith_join isName, if_neg Bool.false_ne_true, names_join isName]

theorem isAbsolute_join : isAbsolute (join directory name) = isAbsolute directory := by
  rcases join_eq isName directory with ⟨joined, rfl | ⟨front, rfl⟩⟩ | ⟨joined, nonempty⟩
  · rw [joined, List.nil_append, isAbsolute_eq_false isName]
    rfl
  · rw [joined]
    cases front <;> simp [isAbsolute, Text.startsWith, List.isPrefixOf]
  · rw [joined]
    cases directory with
    | nil => exact absurd rfl nonempty
    | cons head rest => simp [isAbsolute, Text.startsWith, List.isPrefixOf]

theorem afterLast_join : Text.afterLast '/' (join directory name) = name := by
  rcases join_eq isName directory with ⟨joined, rfl | ⟨front, rfl⟩⟩ | ⟨joined, _⟩
  · simp [joined, Text.afterLast, Text.splitLast_eq_none isName.noSlash]
  · rw [joined, List.append_assoc]
    exact Text.afterLast_append isName.noSlash front
  · rw [joined]
    exact Text.afterLast_append isName.noSlash directory

theorem utf8Length_le_join :
    Text.utf8Length directory ≤ Text.utf8Length (join directory name) := by
  rcases join_eq isName directory with ⟨joined, _⟩ | ⟨joined, _⟩ <;>
    rw [joined, Text.utf8Length_append] <;> exact Nat.le_add_right _ _

theorem nul_mem_join_iff : '\x00' ∈ join directory name ↔ '\x00' ∈ directory := by
  rcases join_eq isName directory with ⟨joined, _⟩ | ⟨joined, _⟩ <;> simp [joined, isName.noNul]

theorem join_ne_nil : join directory name ≠ [] := by
  rcases join_eq isName directory with ⟨joined, _⟩ | ⟨joined, _⟩ <;> simp [joined, isName.nonempty]

end join

/-- A path of entries one in the other is no shorter than that of the first directory. -/
theorem utf8Length_le_foldl_join {place : List Text} (areNames : ∀ name ∈ place, IsEntryName name) :
    Text.utf8Length directory ≤ Text.utf8Length (place.foldl join directory) := by
  induction place generalizing directory with
  | nil => exact Nat.le_refl _
  | cons name place ih =>
      rw [List.forall_mem_cons] at areNames
      exact Nat.le_trans (utf8Length_le_join areNames.1) (ih areNames.2)

end Path

end CompiledViews
