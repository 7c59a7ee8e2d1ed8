import CompiledViews.NatMap
import Mathlib.Data.List.Forall2

/-!
# What a map from numbers holds

Setting a value is seen by looking up that key and by nothing else, and the pairs of a map are its
keys with the values that looking them up gives.
-/

namespace CompiledViews.NatMap

variable {α : Type}

@[simp]
theorem get?_empty (key : Nat) : (empty : NatMap α).get? key = none := rfl

theorem lookup_cons_eq_ite (key : Nat) (pair : Nat × α) (pairs : List (Nat × α)) :
    (pair :: pairs).lookup key = if key = pair.1 then some pair.2 else pairs.lookup key := by
  rw [List.lookup_cons]
  by_cases same : key = pair.1
  · simp [same]
  · have skipped : (key == pair.1) = false := by simpa using same
    simp [skipped, same]

theorem lookup_insertPair (key other : Nat) (value : α) (pairs : List (Nat × α)) :
    (insertPair key value pairs).lookup other =
      if other = key then some value else pairs.lookup other := by
  induction pairs with
  | nil => simp [insertPair, lookup_cons_eq_ite]
  | cons head rest ih =>
      unfold insertPair
      split
      case isTrue _ => simp [lookup_cons_eq_ite]
      case isFalse _ =>
        split
        case isTrue found =>
          subst found
          by_cases same : other = head.1 <;> simp [lookup_cons_eq_ite, same]
        case isFalse different =>
          simp only [lookup_cons_eq_ite, ih]
          by_cases same : other = head.1
          · have differs : head.1 ≠ key := fun equal => different equal.symm
            simp [same, differs]
          · simp [same]

/-- A key that has been set has the value it was set to, every other one what it had. -/
theorem get?_insert (map : NatMap α) (key other : Nat) (value : α) :
    (map.insert key value).get? other = if other = key then some value else map.get? other :=
  lookup_insertPair key other value map.pairs

theorem lookup_eq_some_iff_mem {pairs : List (Nat × α)}
    (ascending : pairs.Pairwise fun left right => left.1 < right.1) (key : Nat) (value : α) :
    pairs.lookup key = some value ↔ (key, value) ∈ pairs := by
  induction pairs with
  | nil => simp
  | cons head rest ih =>
      rcases List.pairwise_cons.1 ascending with ⟨below, rest_ascending⟩
      rw [lookup_cons_eq_ite]
      by_cases same : key = head.1
      · subst same
        have absent : (head.1, value) ∉ rest := fun member =>
          Nat.lt_irrefl head.1 (below (head.1, value) member)
        simp [absent, Prod.ext_iff, eq_comm]
      · simp [same, ih rest_ascending, Prod.ext_iff]

/-- The pairs of a map are its keys with their values. -/
theorem mem_pairs_iff (map : NatMap α) (key : Nat) (value : α) :
    (key, value) ∈ map.pairs ↔ map.get? key = some value :=
  (lookup_eq_some_iff_mem map.ascending key value).symm

/-- Of several values that are set for a key the last one counts. -/
theorem get?_foldl_insert (pairs : List (Nat × α)) (map : NatMap α) (key : Nat) :
    (pairs.foldl (fun map pair => map.insert pair.1 pair.2) map).get? key =
      (pairs.reverse.lookup key).or (map.get? key) := by
  induction pairs generalizing map with
  | nil => rfl
  | cons first pairs ih =>
      rw [List.foldl_cons, ih, get?_insert, List.reverse_cons, List.lookup_append,
        lookup_cons_eq_ite]
      cases pairs.reverse.lookup key <;> split <;> simp

/-- Lists of pairs with the same keys and related values give related values for a key. -/
theorem rel_lookup {β : Type} {related : α → β → Prop} {left : List (Nat × α)}
    {right : List (Nat × β)}
    (pairs : List.Forall₂ (fun first second => first.1 = second.1 ∧ related first.2 second.2)
      left right) (key : Nat) : Option.Rel related (left.lookup key) (right.lookup key) := by
  induction pairs with
  | nil => exact .none
  | @cons first second left right same others ih =>
      rw [lookup_cons_eq_ite, lookup_cons_eq_ite, ← same.1]
      split
      · exact .some same.2
      · exact ih

theorem get?_ofList (pairs : List (Nat × α)) (key : Nat) :
    (ofList pairs).get? key = pairs.reverse.lookup key := by
  rw [ofList, get?_foldl_insert, get?_empty, Option.or_none]

theorem of_mem_insert {map : NatMap α} {property : α → Prop}
    (holds : ∀ pair ∈ map.pairs, property pair.2) {value : α} (new : property value) (key : Nat) :
    ∀ pair ∈ (map.insert key value).pairs, property pair.2 := by
  intro pair member
  rcases mem_insertPair member with rfl | old
  · exact new
  · exact holds pair old

/-- A map made of pairs has no other values than these. -/
theorem of_mem_ofList {pairs : List (Nat × α)} {property : α → Prop}
    (holds : ∀ pair ∈ pairs, property pair.2) :
    ∀ pair ∈ (ofList pairs).pairs, property pair.2 := by
  suffices ∀ map : NatMap α, (∀ pair ∈ map.pairs, property pair.2) →
      ∀ pair ∈ (pairs.foldl (fun map pair => map.insert pair.1 pair.2) map).pairs,
        property pair.2 from this empty (by simp [empty])
  induction pairs with
  | nil => exact fun _ earlier => earlier
  | cons first pairs ih =>
      intro map earlier
      refine ih (fun pair member => holds pair (List.mem_cons_of_mem _ member)) _ ?_
      exact of_mem_insert earlier (holds first List.mem_cons_self) first.1

end CompiledViews.NatMap
