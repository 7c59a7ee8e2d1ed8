/-!
# Maps between lines

A map from line numbers to line numbers. Lines are numbered without large gaps, so the map is a row
of slots, one for each number up to the greatest key: the slot of a number that is no key is vacant.
The last slot never is, which gives a map one representation.
-/

namespace CompiledViews

/-- The slots of a map between lines. A slot is vacant or holds the value of its number. -/
structure LineMap where
  slots : Array (Option UInt32)
  lastFilled : slots.back? ≠ some none
  /-- Every slot has a number. -/
  numbered : slots.size ≤ UInt32.size
deriving DecidableEq

namespace LineMap

/-- The map without values. -/
def empty : LineMap := ⟨#[], by simp, by decide⟩

instance : Inhabited LineMap := ⟨empty⟩

/-- Slots with the one at an index filled, and as many vacant ones before it as it takes to reach
it. -/
def fill (slots : Array (Option UInt32)) (index : Nat) (value : UInt32) : Array (Option UInt32) :=
  let reaching := slots ++ Array.replicate (index + 1 - slots.size) none
  reaching.setIfInBounds index (some value)

@[simp]
theorem size_fill (slots : Array (Option UInt32)) (index : Nat) (value : UInt32) :
    (fill slots index value).size = max slots.size (index + 1) := by
  simp only [fill, Array.size_setIfInBounds, Array.size_append, Array.size_replicate]
  omega

/-- Only the slot that is filled is another one than before, and those that are new are vacant. -/
theorem getElem?_fill (slots : Array (Option UInt32)) (index : Nat) (value : UInt32)
    (place : Nat) :
    (fill slots index value)[place]? =
      if place = index then some (some value)
      else if place < slots.size then slots[place]?
      else if place < index then some none else none := by
  have reached : index < slots.size + (index + 1 - slots.size) := by omega
  simp only [fill, Array.getElem?_setIfInBounds, Array.size_append, Array.size_replicate, reached,
    if_true, Array.getElem?_append, Array.getElem?_replicate, eq_comm (a := index)]
  split
  · rfl
  · split
    · rfl
    · congr 1
      apply propext
      omega

theorem fill_lastFilled {slots : Array (Option UInt32)} (lastFilled : slots.back? ≠ some none)
    (index : Nat) (value : UInt32) : (fill slots index value).back? ≠ some none := by
  rw [Array.back?_eq_getElem?] at lastFilled ⊢
  rw [size_fill, getElem?_fill]
  by_cases isLast : slots.size ≤ index + 1
  · have place : max slots.size (index + 1) - 1 = index := by omega
    simp [place]
  · have place : max slots.size (index + 1) - 1 = slots.size - 1 := by omega
    have isOther : slots.size - 1 ≠ index := by omega
    have isOld : slots.size - 1 < slots.size := by omega
    rwa [place, if_neg isOther, if_pos isOld]

/-- The map with the value of one key set; an earlier value of that key is lost. -/
def insert (map : LineMap) (key value : UInt32) : LineMap where
  slots := fill map.slots key.toNat value
  lastFilled := fill_lastFilled map.lastFilled key.toNat value
  numbered := by
    have inRange := key.toNat_lt_size
    have numbered := map.numbered
    rw [size_fill]
    omega

def get? (map : LineMap) (key : UInt32) : Option UInt32 := map.slots[key.toNat]?.join

def isEmpty (map : LineMap) : Bool := map.slots.all Option.isNone

/-- The keys with their values, in the order of the slots. -/
def pairs (map : LineMap) : List (UInt32 × UInt32) :=
  map.slots.toList.zipIdx.filterMap fun (slot, index) =>
    slot.map fun value => (UInt32.ofNat index, value)

/-- The map that setting the given values one after the other leads to. -/
def ofList (pairs : List (UInt32 × UInt32)) : LineMap :=
  pairs.foldl (fun map pair => map.insert pair.1 pair.2) empty

end LineMap

end CompiledViews
