import CompiledViews.Text.Basic
import Mathlib.Data.List.TakeWhile

/-!
# Ranges of lines

A dump is cut into ranges by lines that open one. What such a line opens reaches from the line below
it to the next line at which a range stops.
-/

namespace CompiledViews.Dump

variable {α : Type} {opens : Text → Option α} {stops : Text → Bool}

/-- What the opening lines among some lines open, each with the lines of its range. -/
def ranges (opens : Text → Option α) (stops : Text → Bool) : List Text → List (α × List Text)
  | [] => []
  | line :: rest =>
    match opens line with
    | some opening => (opening, rest.takeWhile fun line => !stops line) :: ranges opens stops rest
    | none => ranges opens stops rest

theorem ranges_cons_of_none {line : Text} {rest : List Text} (noOpening : opens line = none) :
    ranges opens stops (line :: rest) = ranges opens stops rest := by
  rw [ranges, noOpening]

theorem ranges_cons_of_some {line : Text} {rest : List Text} {opening : α}
    (isOpening : opens line = some opening) :
    ranges opens stops (line :: rest) =
      (opening, rest.takeWhile fun line => !stops line) :: ranges opens stops rest := by
  rw [ranges, isOpening]

theorem ranges_append_of_none {front rest : List Text}
    (noOpening : ∀ line ∈ front, opens line = none) :
    ranges opens stops (front ++ rest) = ranges opens stops rest := by
  induction front with
  | nil => rfl
  | cons line front ih =>
      obtain ⟨here, later⟩ := List.forall_mem_cons.1 noOpening
      rw [List.cons_append, ranges_cons_of_none here, ih later]

/-- A range is opened by one of the lines, and its lines are among them. -/
theorem of_mem_ranges {lines : List Text} {range : α × List Text}
    (member : range ∈ ranges opens stops lines) :
    (∃ line ∈ lines, opens line = some range.1) ∧ range.2 ⊆ lines := by
  induction lines with
  | nil => cases member
  | cons line rest ih =>
      have later (inRest : range ∈ ranges opens stops rest) :
          (∃ other ∈ line :: rest, opens other = some range.1) ∧ range.2 ⊆ line :: rest := by
        obtain ⟨⟨other, inLines, isOpening⟩, subset⟩ := ih inRest
        exact ⟨⟨other, List.mem_cons_of_mem _ inLines, isOpening⟩,
          List.subset_cons_of_subset line subset⟩
      rcases isOpening : opens line with _ | opening
      · rw [ranges_cons_of_none isOpening] at member
        exact later member
      · rw [ranges_cons_of_some isOpening] at member
        rcases List.mem_cons.1 member with rfl | inRest
        · exact ⟨⟨line, List.mem_cons_self, isOpening⟩,
            List.subset_cons_of_subset line (List.takeWhile_prefix _).subset⟩
        · exact later inRest

end CompiledViews.Dump
