import CompiledViews.Proofs.Text.Parts
import CompiledViews.Text.Form
import Mathlib.Data.List.TakeDrop

/-!
# What forms read

A form reads from the front: what it leaves of a part of a line is again a part of that line, and so
is each text that it takes. `Reads` states this for one form and the property that the taken value
has, and there is one rule for each way of building forms.
-/

namespace CompiledViews.Text

namespace Form

variable {α β : Type}

theorem mem_one {isMember : Char → Bool} {text rest : Text} {character : Char}
    (member : (character, rest) ∈ one isMember text) :
    text = character :: rest ∧ isMember character = true := by
  cases text with
  | nil => simp [one] at member
  | cons head text =>
      simp only [one, List.mem_ite_nil_right, List.mem_singleton, Prod.mk.injEq] at member
      rcases member with ⟨isWanted, rfl, rfl⟩
      exact ⟨rfl, isWanted⟩

theorem mem_literal {expected text rest : Text} (member : ((), rest) ∈ literal expected text) :
    text = expected ++ rest := by
  unfold literal at member
  split at member
  case h_1 left found =>
    obtain rfl := by simpa using member
    exact after?_eq_some_iff.1 found
  case h_2 _ => simp at member

theorem mem_run {isMember : Char → Bool} {text taken rest : Text}
    (member : (taken, rest) ∈ run isMember text) : text = taken ++ rest := by
  induction text generalizing taken rest with
  | nil => simp_all [run]
  | cons head text ih =>
      rw [run] at member
      split at member
      · rcases List.mem_append.1 member with more | none
        · rcases List.mem_map.1 more with ⟨⟨others, left⟩, inRun, equal⟩
          rcases Prod.mk.inj equal with ⟨rfl, rfl⟩
          simp [ih inRun]
        · simp_all
      · simp_all

theorem mem_run1 {isMember : Char → Bool} {text taken rest : Text}
    (member : (taken, rest) ∈ run1 isMember text) : text = taken ++ rest := by
  rcases List.mem_flatMap.1 member with ⟨⟨first, left⟩, inOne, later⟩
  rcases List.mem_flatMap.1 later with ⟨⟨others, last⟩, inRun, equal⟩
  obtain ⟨rfl, rfl⟩ := by simpa [nothing] using equal
  rw [(mem_one inOne).1, mem_run inRun]
  rfl

theorem mem_span {isMember : Char → Bool} {text taken rest : Text}
    (member : (taken, rest) ∈ span isMember text) : text = taken ++ rest := by
  simp only [span, List.mem_singleton, List.span_eq_takeWhile_dropWhile, Prod.mk.injEq] at member
  rcases member with ⟨rfl, rfl⟩
  exact (List.takeWhile_append_dropWhile ..).symm

theorem mem_span1 {isMember : Char → Bool} {text taken rest : Text}
    (member : (taken, rest) ∈ span1 isMember text) : text = taken ++ rest := by
  unfold span1 at member
  split at member
  · simp at member
  · exact mem_span member

theorem mem_exactly {isMember : Char → Bool} {count : Nat} {text taken rest : Text}
    (member : (taken, rest) ∈ exactly isMember count text) : text = taken ++ rest := by
  induction count generalizing text taken rest with
  | zero => simp_all [exactly, nothing]
  | succ count ih =>
      rcases List.mem_flatMap.1 member with ⟨⟨first, left⟩, inOne, later⟩
      rcases List.mem_flatMap.1 later with ⟨⟨others, last⟩, inRest, equal⟩
      obtain ⟨rfl, rfl⟩ := by simpa [nothing] using equal
      rw [(mem_one inOne).1, ih inRest]
      rfl

theorem mem_upTo {isMember : Char → Bool} {mark text taken rest : Text}
    (member : (taken, rest) ∈ upTo isMember mark text) : text = taken ++ (mark ++ rest) := by
  induction text generalizing taken rest with
  | nil => simp [upTo] at member
  | cons head text ih =>
      rcases List.mem_append.1 member with more | here
      · split at more
        · rcases List.mem_map.1 more with ⟨⟨others, left⟩, inUpTo, equal⟩
          rcases Prod.mk.inj equal with ⟨rfl, rfl⟩
          simp [ih inUpTo]
        · simp at more
      · split at here
        case h_1 left found =>
          obtain ⟨rfl, rfl⟩ := by simpa using here
          simpa using after?_eq_some_iff.1 found
        case h_2 _ => simp at here

theorem mem_somethingUpTo {mark text taken rest : Text}
    (member : (taken, rest) ∈ somethingUpTo mark text) : text = taken ++ (mark ++ rest) := by
  rcases List.mem_flatMap.1 member with ⟨⟨first, left⟩, inOne, later⟩
  rcases List.mem_flatMap.1 later with ⟨⟨others, last⟩, inUpTo, equal⟩
  obtain ⟨rfl, rfl⟩ := by simpa [nothing] using equal
  rw [(mem_one inOne).1, mem_upTo inUpTo]
  rfl

/-- In a part of the line a form reads values with a property, and leaves a part of the line. -/
def Reads (line : Text) (form : Form α) (property : α → Prop) : Prop :=
  ∀ text, text <:+: line → ∀ value rest, (value, rest) ∈ form text →
    property value ∧ rest <:+: line

/-- The property of a value to be a part of the line. -/
def PartOf (line part : Text) : Prop := part <:+: line

namespace Reads

variable {line : Text} {form : Form α} {property : α → Prop}

theorem first? (reads : Reads line form property) {text : Text} (isPart : text <:+: line)
    {value : α} (found : form.first? text = some value) : property value := by
  unfold Form.first? at found
  rcases Option.map_eq_some_iff.1 found with ⟨⟨taken, rest⟩, atHead, rfl⟩
  exact (reads text isPart taken rest (List.mem_of_head? atHead)).1

/-- It is enough that the form leaves an end of every text. -/
theorem of_suffix
    (suffix : ∀ text value rest, (value, rest) ∈ form text →
      rest <:+ text ∧ (text <:+: line → property value)) : Reads line form property := by
  intro text isPart value rest member
  rcases suffix text value rest member with ⟨isSuffix, holds⟩
  exact ⟨holds isPart, isSuffix.isInfix.trans isPart⟩

theorem pure {value : α} (holds : property value) : Reads line (pure value) property := by
  intro text isPart other rest member
  obtain ⟨rfl, rfl⟩ := by simpa [Pure.pure, nothing] using member
  exact ⟨holds, isPart⟩

/-- A form whose value does not matter. -/
theorem done {value : α} : Reads line (Pure.pure value) fun _ => True :=
  pure trivial

theorem andThen {next : α → Form β} {result : β → Prop} (first : Reads line form property)
    (second : ∀ value, property value → Reads line (next value) result) :
    Reads line (form.andThen next) result := by
  intro text isPart value rest member
  rcases List.mem_flatMap.1 member with ⟨⟨taken, left⟩, inFirst, inSecond⟩
  rcases first text isPart taken left inFirst with ⟨holds, leftIsPart⟩
  exact second taken holds left leftIsPart value rest inSecond

theorem bind {next : α → Form β} {result : β → Prop} (first : Reads line form property)
    (second : ∀ value, property value → Reads line (next value) result) :
    Reads line (form >>= next) result :=
  first.andThen second

theorem either {other : Form α} (left : Reads line form property)
    (right : Reads line other property) : Reads line (form.either other) property := by
  intro text isPart value rest member
  rcases List.mem_append.1 member with inLeft | inRight
  · exact left text isPart value rest inLeft
  · exact right text isPart value rest inRight

/-- A form that takes what stands before the rest and maybe a mark takes a part of the line. -/
theorem of_append {form : Form Text} (mark : Text)
    (split : ∀ text taken rest, (taken, rest) ∈ form text → text = taken ++ (mark ++ rest)) :
    Reads line form (PartOf line) := by
  apply of_suffix
  intro text taken rest member
  rw [split text taken rest member]
  exact ⟨⟨taken ++ mark, by simp⟩, (List.prefix_append taken _).isInfix.trans⟩

theorem one (isMember : Char → Bool) :
    Reads line (one isMember) fun character => isMember character = true := by
  apply of_suffix
  intro text character rest member
  rcases mem_one member with ⟨rfl, isMember⟩
  exact ⟨List.suffix_cons .., fun _ => isMember⟩

theorem literal (expected : Text) : Reads line (literal expected) fun _ => True := by
  apply of_suffix
  intro text _ rest member
  rw [mem_literal member]
  exact ⟨List.suffix_append .., fun _ => trivial⟩

theorem run (isMember : Char → Bool) : Reads line (run isMember) (PartOf line) :=
  of_append [] fun _ _ _ => mem_run

theorem run1 (isMember : Char → Bool) : Reads line (run1 isMember) (PartOf line) :=
  of_append [] fun _ _ _ => mem_run1

theorem span (isMember : Char → Bool) : Reads line (span isMember) (PartOf line) :=
  of_append [] fun _ _ _ => mem_span

theorem span1 (isMember : Char → Bool) : Reads line (span1 isMember) (PartOf line) :=
  of_append [] fun _ _ _ => mem_span1

theorem exactly (isMember : Char → Bool) (count : Nat) :
    Reads line (exactly isMember count) (PartOf line) :=
  of_append [] fun _ _ _ => mem_exactly

theorem upTo (isMember : Char → Bool) (mark : Text) :
    Reads line (upTo isMember mark) (PartOf line) :=
  of_append mark fun _ _ _ => mem_upTo

theorem somethingUpTo (mark : Text) : Reads line (somethingUpTo mark) (PartOf line) :=
  of_append mark fun _ _ _ => mem_somethingUpTo

theorem given {value : Option α} (holds : ∀ present ∈ value, property present) :
    Reads line (given value) property := by
  intro text isPart present rest member
  cases value with
  | none => simp [Form.given] at member
  | some value =>
      obtain ⟨rfl, rfl⟩ := by simpa [Form.given] using member
      exact ⟨holds _ rfl, isPart⟩

theorem atEnd : Reads line atEnd fun _ => True := by
  apply of_suffix
  intro text _ rest member
  cases text with
  | nil => simp_all [Form.atEnd]
  | cons head text => simp [Form.atEnd] at member

/-- The text that a reading covers is a part of the line as well. -/
theorem covering (reads : Reads line form property) :
    Reads line form.covering fun covered => PartOf line covered.1 ∧ property covered.2 := by
  intro text isPart covered rest member
  rcases List.mem_map.1 member with ⟨⟨value, left⟩, inForm, equal⟩
  rcases Prod.mk.inj equal with ⟨rfl, rfl⟩
  rcases reads text isPart value left inForm with ⟨holds, leftIsPart⟩
  exact ⟨⟨(List.take_prefix _ text).isInfix.trans isPart, holds⟩, leftIsPart⟩

theorem anywhere (reads : Reads line form property) : Reads line form.anywhere property := by
  intro text isPart
  induction text with
  | nil => exact reads [] isPart
  | cons head text ih =>
      intro value rest member
      rcases List.mem_append.1 member with here | later
      · exact reads _ isPart value rest here
      · exact ih ((List.suffix_cons head text).isInfix.trans isPart) value rest later

end Reads

end Form

end CompiledViews.Text
