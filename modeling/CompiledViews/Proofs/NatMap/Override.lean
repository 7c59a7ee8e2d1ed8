import CompiledViews.Proofs.NatMap
import Mathlib.Data.List.Sort

/-!
# Maps over maps

A map may be put over another one, its keys may be raised and its values changed. What comes of this
is seen by looking keys up, and setting a value before or after it makes no difference. As a map has
one representation, maps that give the same for each key are equal, so all of these are equations
between maps.
-/

namespace CompiledViews.NatMap

variable {α β : Type}

/-- Maps that give the same for each key are the same map. -/
theorem ext_of_get? {left right : NatMap α} (same : ∀ key, left.get? key = right.get? key) :
    left = right := by
  have ofPairs : left.pairs = right.pairs := by
    have : Std.Irrefl fun first second : Nat × α => first.1 < second.1 :=
      ⟨fun pair => Nat.lt_irrefl pair.1⟩
    have : Std.Antisymm fun first second : Nat × α => first.1 < second.1 :=
      ⟨fun _ _ before after => absurd (Nat.lt_trans before after) (Nat.lt_irrefl _)⟩
    refine left.ascending.eq_of_mem_iff right.ascending fun pair => ?_
    rw [mem_pairs_iff, mem_pairs_iff, same]
  cases left
  cases right
  cases ofPairs
  rfl

/-- The values of two maps; where both have one, that of the second. -/
def override (map upper : NatMap α) : NatMap α :=
  upper.pairs.foldl (fun map pair => map.insert pair.1 pair.2) map

/-- A map with its keys raised by a number. -/
def raise (offset : Nat) (map : NatMap α) : NatMap α where
  pairs := map.pairs.map fun pair => (pair.1 + offset, pair.2)
  ascending := List.pairwise_map.2
    (map.ascending.imp fun below => Nat.add_lt_add_right below offset)

/-- A map with its values changed. -/
def mapValues (change : α → β) (map : NatMap α) : NatMap β where
  pairs := map.pairs.map fun pair => (pair.1, change pair.2)
  ascending := List.pairwise_map.2 map.ascending

/-! ### Looking keys up -/

theorem lookup_reverse {pairs : List (Nat × α)}
    (ascending : pairs.Pairwise fun left right => left.1 < right.1) (key : Nat) :
    pairs.reverse.lookup key = pairs.lookup key := by
  induction pairs with
  | nil => rfl
  | cons head rest ih =>
      obtain ⟨below, rest_ascending⟩ := List.pairwise_cons.1 ascending
      rw [List.reverse_cons, List.lookup_append, ih rest_ascending, lookup_cons_eq_ite,
        lookup_cons_eq_ite]
      by_cases same : key = head.1
      · have absent : rest.lookup key = none := by
          by_contra found
          obtain ⟨value, isFound⟩ := Option.ne_none_iff_exists'.1 found
          have above := below _ ((lookup_eq_some_iff_mem rest_ascending key value).1 isFound)
          exact absurd above (same ▸ Nat.lt_irrefl _)
        rw [absent]
        simp [same]
      · simp [same]

theorem get?_override (map upper : NatMap α) (key : Nat) :
    (map.override upper).get? key = (upper.get? key).or (map.get? key) := by
  rw [override, get?_foldl_insert, lookup_reverse upper.ascending]
  rfl

theorem get?_raise (offset : Nat) (map : NatMap α) (key : Nat) :
    (map.raise offset).get? key = if offset ≤ key then map.get? (key - offset) else none := by
  ext value
  rw [← mem_pairs_iff]
  simp only [raise, List.mem_map, Prod.exists, Prod.mk.injEq, mem_pairs_iff]
  constructor
  · rintro ⟨lower, _, found, rfl, rfl⟩
    simpa using found
  · intro found
    obtain ⟨above, found⟩ := Option.ite_none_right_eq_some.1 found
    exact ⟨_, value, found, Nat.sub_add_cancel above, rfl⟩

theorem get?_mapValues (change : α → β) (map : NatMap α) (key : Nat) :
    (map.mapValues change).get? key = (map.get? key).map change := by
  ext value
  rw [← mem_pairs_iff]
  simp only [mapValues, List.mem_map, Prod.exists, Prod.mk.injEq, mem_pairs_iff,
    Option.map_eq_some_iff]
  constructor
  · rintro ⟨_, before, found, rfl, rfl⟩
    exact ⟨before, found, rfl⟩
  · rintro ⟨before, found, rfl⟩
    exact ⟨key, before, found, rfl, rfl⟩

/-! ### Setting a value -/

theorem insert_override (map upper : NatMap α) (key : Nat) (value : α) :
    (map.override upper).insert key value = map.override (upper.insert key value) := by
  refine ext_of_get? fun other => ?_
  simp only [get?_override, get?_insert]
  split <;> rfl

theorem insert_raise (offset : Nat) (map : NatMap α) (key : Nat) (value : α) :
    (map.raise offset).insert (key + offset) value = (map.insert key value).raise offset := by
  refine ext_of_get? fun other => ?_
  simp only [get?_raise, get?_insert]
  by_cases above : offset ≤ other
  · have sameKey : other = key + offset ↔ other - offset = key := by omega
    simp only [if_pos above, sameKey]
  · rw [if_neg above, if_neg above, if_neg (by omega)]

theorem insert_mapValues (change : α → β) (map : NatMap α) (key : Nat) (value : α) :
    (map.mapValues change).insert key (change value) =
      (map.insert key value).mapValues change := by
  refine ext_of_get? fun other => ?_
  simp only [get?_mapValues, get?_insert]
  split <;> rfl

/-- The pairs of a map that is put over smaller keys come after those of the other one. -/
theorem pairs_override {map upper : NatMap α}
    (below : ∀ pair ∈ map.pairs, ∀ other ∈ upper.pairs, pair.1 < other.1) :
    (map.override upper).pairs = map.pairs ++ upper.pairs := by
  let joined : NatMap α :=
    ⟨map.pairs ++ upper.pairs, List.pairwise_append.2 ⟨map.ascending, upper.ascending, below⟩⟩
  suffices map.override upper = joined by rw [this]
  refine ext_of_get? fun key => ?_
  have ofJoined : joined.get? key = (map.get? key).or (upper.get? key) := List.lookup_append
  rw [get?_override, ofJoined]
  cases inOver : upper.get? key with
  | none => simp
  | some value =>
      cases inMap : map.get? key with
      | none => simp
      | some other =>
          have smaller := below _ ((mem_pairs_iff ..).2 inMap) _ ((mem_pairs_iff ..).2 inOver)
          exact absurd smaller (Nat.lt_irrefl _)

end CompiledViews.NatMap
