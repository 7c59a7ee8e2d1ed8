import CompiledViews.LineMap
import CompiledViews.Proofs.NatMap.Override

/-!
# What a map between lines holds

A row of slots is a finite map: setting a value is seen by looking up that key and by nothing else,
and the pairs are the keys with the values that looking them up gives, in strict order. Maps that
give the same for each key are equal, since the row ends with its greatest key: a longer row would
have a value in its last slot that the other one does not have.

With its numbers read as natural ones, such a map is the number map to which the same values lead.
-/

namespace CompiledViews.LineMap

variable {map left right : LineMap}

/-! ### Looking keys up -/

@[simp]
theorem get?_empty (key : UInt32) : empty.get? key = none := rfl

/-- A key that has been set has the value it was set to, every other one what it had. -/
theorem get?_insert (map : LineMap) (key other value : UInt32) :
    (map.insert key value).get? other = if other = key then some value else map.get? other := by
  simp only [get?, insert, getElem?_fill, UInt32.toNat_inj]
  split
  · rfl
  · split
    · rfl
    · rename_i isNew
      rw [Array.getElem?_eq_none (Nat.le_of_not_lt isNew)]
      split <;> rfl

/-- Of several values that are set for a key the last one counts. -/
theorem get?_foldl_insert (pairs : List (UInt32 × UInt32)) (map : LineMap) (key : UInt32) :
    (pairs.foldl (fun map pair => map.insert pair.1 pair.2) map).get? key =
      (pairs.reverse.lookup key).or (map.get? key) := by
  induction pairs generalizing map with
  | nil => rfl
  | cons first pairs ih =>
      rw [List.foldl_cons, ih, get?_insert, List.reverse_cons, List.lookup_append,
        List.lookup_cons]
      by_cases same : key = first.1
      · cases pairs.reverse.lookup key <;> simp [same]
      · have skipped : (key == first.1) = false := by simpa using same
        cases pairs.reverse.lookup key <;> simp [same, skipped]

theorem get?_ofList (pairs : List (UInt32 × UInt32)) (key : UInt32) :
    (ofList pairs).get? key = pairs.reverse.lookup key := by
  rw [ofList, get?_foldl_insert, get?_empty, Option.or_none]

/-! ### Pairs -/

/-- The pairs of a map are its keys with their values. -/
theorem mem_pairs_iff (map : LineMap) (key value : UInt32) :
    (key, value) ∈ map.pairs ↔ map.get? key = some value := by
  have atKey : (key, value) ∈ map.pairs ↔ map.slots[key.toNat]? = some (some value) := by
    simp only [pairs, List.mem_filterMap, Prod.exists, List.mem_zipIdx_iff_getElem?,
      Option.map_eq_some_iff, Prod.mk.injEq, Array.getElem?_toList]
    constructor
    · rintro ⟨slot, index, isSlot, _, rfl, isKey, rfl⟩
      have inRange : index < UInt32.size :=
        Nat.lt_of_lt_of_le (Array.getElem?_eq_some_iff.1 isSlot).1 map.numbered
      rwa [← isKey, UInt32.toNat_ofNat_of_lt' inRange]
    · intro isSlot
      exact ⟨some value, key.toNat, isSlot, value, rfl, UInt32.ofNat_toNat, rfl⟩
  rw [atKey, get?, Option.join_eq_some_iff]

/-- The keys come in strict order. -/
theorem pairs_ascending (map : LineMap) :
    map.pairs.Pairwise fun first second => first.1 < second.1 := by
  have inOrder : map.slots.toList.zipIdx.Pairwise fun first second => first.2 < second.2 := by
    rw [← List.pairwise_map (f := Prod.snd) (R := (· < ·)), List.zipIdx_map_snd]
    exact List.pairwise_lt_range'
  refine List.pairwise_filterMap.2 (inOrder.imp_of_mem ?_)
  rintro ⟨slot, index⟩ ⟨slot', index'⟩ _ member before pair isPair pair' isPair'
  obtain ⟨value, -, rfl⟩ := Option.map_eq_some_iff.1 isPair
  obtain ⟨value', -, rfl⟩ := Option.map_eq_some_iff.1 isPair'
  have inRange : index' < UInt32.size := by
    rw [List.mem_zipIdx_iff_getElem?, Array.getElem?_toList] at member
    exact Nat.lt_of_lt_of_le (Array.getElem?_eq_some_iff.1 member).1 map.numbered
  rw [UInt32.lt_iff_toNat_lt, UInt32.toNat_ofNat_of_lt' inRange,
    UInt32.toNat_ofNat_of_lt' (Nat.lt_trans before inRange)]
  exact before

theorem mem_map_fst_pairs_iff (map : LineMap) (key : UInt32) :
    key ∈ map.pairs.map Prod.fst ↔ (map.get? key).isSome := by
  simp [mem_pairs_iff, Option.isSome_iff_exists]

/-! ### One representation -/

/-- What a slot holds, also of a number for which there is none. -/
theorem join_slot_eq (same : ∀ key, left.get? key = right.get? key) (index : Nat) :
    left.slots[index]?.join = right.slots[index]?.join := by
  by_cases inRange : index < UInt32.size
  · have isKey := same (UInt32.ofNat index)
    rwa [get?, get?, UInt32.toNat_ofNat_of_lt' inRange] at isKey
  · have outside (map : LineMap) : map.slots[index]? = none :=
      Array.getElem?_eq_none (Nat.le_trans map.numbered (Nat.le_of_not_lt inRange))
    rw [outside, outside]

/-- The last slot of a row is filled, so the row is no longer than one that gives the same. -/
theorem size_slots_le (same : ∀ key, left.get? key = right.get? key) :
    left.slots.size ≤ right.slots.size := by
  by_contra longer
  have isLast : left.slots.size - 1 < left.slots.size := by omega
  have beyond : right.slots[left.slots.size - 1]? = none :=
    Array.getElem?_eq_none (by omega)
  have vacant := join_slot_eq same (left.slots.size - 1)
  rw [beyond, Array.getElem?_eq_getElem isLast] at vacant
  apply left.lastFilled
  rw [Array.back?_eq_getElem?, Array.getElem?_eq_getElem isLast]
  exact congrArg some vacant

/-- Maps that give the same for each key are the same map. -/
theorem ext_of_get? (same : ∀ key, left.get? key = right.get? key) : left = right := by
  have sameSize : left.slots.size = right.slots.size :=
    Nat.le_antisymm (size_slots_le same) (size_slots_le fun key => (same key).symm)
  have sameSlots : left.slots = right.slots := by
    refine Array.ext sameSize fun index inLeft inRight => ?_
    have joined := join_slot_eq same index
    rwa [Array.getElem?_eq_getElem inLeft, Array.getElem?_eq_getElem inRight] at joined
  cases left
  cases right
  cases sameSlots
  rfl

/-- Maps with the same pairs are the same map. -/
theorem eq_iff_pairs_eq : left = right ↔ left.pairs = right.pairs := by
  refine ⟨congrArg pairs, fun same => ext_of_get? fun key => Option.ext fun value => ?_⟩
  rw [← mem_pairs_iff, ← mem_pairs_iff, same]

/-- A map is empty if it has no pairs, for then all of its slots are vacant. -/
theorem isEmpty_iff (map : LineMap) : map.isEmpty = true ↔ map.pairs = [] := by
  rw [isEmpty, Array.all_eq_true_iff_forall_mem, pairs, List.filterMap_eq_nil_iff]
  constructor
  · rintro allVacant ⟨slot, index⟩ member
    rw [List.mem_zipIdx_iff_getElem?, Array.getElem?_toList] at member
    rw [Option.map_eq_none_iff, ← Option.isNone_iff_eq_none]
    exact allVacant slot (Array.mem_of_getElem? member)
  · intro noPair slot member
    obtain ⟨index, isSlot⟩ := Array.getElem?_of_mem member
    have inRow : (slot, index) ∈ map.slots.toList.zipIdx := by
      rwa [List.mem_zipIdx_iff_getElem?, Array.getElem?_toList]
    rw [Option.isNone_iff_eq_none, ← Option.map_eq_none_iff]
    exact noPair (slot, index) inRow

/-! ### As a number map -/

/-- A pair of line numbers read as natural numbers. -/
def numbers (pair : UInt32 × UInt32) : Nat × Nat := (pair.1.toNat, pair.2.toNat)

/-- The number map with the pairs of a map. -/
def toNatMap (map : LineMap) : NatMap Nat where
  pairs := map.pairs.map numbers
  ascending := List.pairwise_map.2
    (map.pairs_ascending.imp fun before => UInt32.lt_iff_toNat_lt.1 before)

theorem get?_toNatMap_eq_some_iff (map : LineMap) (number result : Nat) :
    map.toNatMap.get? number = some result ↔
      ∃ key value, map.get? key = some value ∧ key.toNat = number ∧ value.toNat = result := by
  simp only [← NatMap.mem_pairs_iff, toNatMap, List.mem_map, Prod.exists, mem_pairs_iff, numbers,
    Prod.mk.injEq]

theorem toNatMap_insert (map : LineMap) (key value : UInt32) :
    (map.insert key value).toNatMap = map.toNatMap.insert key.toNat value.toNat := by
  refine NatMap.ext_of_get? fun number => Option.ext fun result => ?_
  rw [get?_toNatMap_eq_some_iff, NatMap.get?_insert]
  by_cases isKey : number = key.toNat
  · simp [isKey, get?_insert, UInt32.toNat_inj]
  · rw [if_neg isKey, get?_toNatMap_eq_some_iff]
    have isOther {other : UInt32} (isNumber : other.toNat = number) : other ≠ key :=
      fun same => isKey (by rw [← isNumber, same])
    refine exists_congr fun other => exists_congr fun value => and_congr_left ?_
    rintro ⟨isNumber, _⟩
    rw [get?_insert, if_neg (isOther isNumber)]

/-- The same values lead to the same pairs in a number map. -/
theorem toNatMap_ofList (pairs : List (UInt32 × UInt32)) :
    (ofList pairs).toNatMap = NatMap.ofList (pairs.map numbers) := by
  suffices ∀ map : LineMap,
      (pairs.foldl (fun map pair => map.insert pair.1 pair.2) map).toNatMap =
        (pairs.map numbers).foldl (fun map pair => map.insert pair.1 pair.2) map.toNatMap from
    this empty
  induction pairs with
  | nil => exact fun _ => rfl
  | cons first pairs ih =>
      intro map
      rw [List.foldl_cons, ih, toNatMap_insert]
      rfl

/-! ### The map that values lead to -/

theorem mem_map_fst_pairs_ofList (inserts : List (UInt32 × UInt32)) (key : UInt32) :
    key ∈ (ofList inserts).pairs.map Prod.fst ↔ key ∈ inserts.map Prod.fst := by
  rw [mem_map_fst_pairs_iff, get?_ofList, List.lookup_isSome_iff]
  simp only [List.mem_reverse, beq_iff_eq, List.mem_map, @eq_comm _ key]

/-- Setting values one after the other makes the finite map of the last values of their keys. It is
empty only if no value is set, it is told by its pairs, and the number map to which the values lead
has the same pairs. -/
theorem isFiniteMap_ofList (inserts : List (UInt32 × UInt32)) :
    (∀ key, (ofList inserts).get? key = inserts.reverse.lookup key) ∧
      ((ofList inserts).pairs.Pairwise fun first second => first.1 < second.1) ∧
      (∀ key, key ∈ (ofList inserts).pairs.map Prod.fst ↔ key ∈ inserts.map Prod.fst) ∧
      (∀ key value, (key, value) ∈ (ofList inserts).pairs ↔
        inserts.reverse.lookup key = some value) ∧
      ((ofList inserts).isEmpty = true ↔ inserts = []) ∧
      (∀ others, ofList inserts = ofList others ↔
        (ofList inserts).pairs = (ofList others).pairs) ∧
      (NatMap.ofList (inserts.map numbers)).pairs = (ofList inserts).pairs.map numbers := by
  refine ⟨get?_ofList inserts, pairs_ascending _, mem_map_fst_pairs_ofList inserts, ?_, ?_,
    fun _ => eq_iff_pairs_eq, ?_⟩
  · intro key value
    rw [mem_pairs_iff, get?_ofList]
  · have sameKeys := mem_map_fst_pairs_ofList inserts
    rw [isEmpty_iff, ← List.map_eq_nil_iff (f := Prod.fst), ← List.map_eq_nil_iff (f := Prod.fst)
      (l := inserts), List.eq_nil_iff_forall_not_mem, List.eq_nil_iff_forall_not_mem]
    exact forall_congr' fun key => not_congr (sameKeys key)
  · rw [← toNatMap_ofList]
    rfl

example : (ofList [(3, 7), (1, 5), (3, 2)]).pairs = [(1, 5), (3, 2)] := by decide

end CompiledViews.LineMap
