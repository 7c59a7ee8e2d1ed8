/-!
# Maps from numbers

A finite map from natural numbers, kept as its pairs in ascending order of the keys. As the order
is strict, a map has one representation: two maps are equal as soon as they hold the same pairs.
-/

namespace CompiledViews

variable {α : Type}

/-- The pairs of a map, keys strictly ascending. -/
structure NatMap (α : Type) where
  pairs : List (Nat × α)
  ascending : pairs.Pairwise fun left right => left.1 < right.1
deriving DecidableEq, Repr

namespace NatMap

/-- The map without pairs. -/
def empty : NatMap α := ⟨[], .nil⟩

instance : Inhabited (NatMap α) := ⟨empty⟩

/-- Ascending pairs with the value of one key set. -/
def insertPair (key : Nat) (value : α) : List (Nat × α) → List (Nat × α)
  | [] => [(key, value)]
  | pair :: rest =>
    if key < pair.1 then (key, value) :: pair :: rest
    else if key = pair.1 then (key, value) :: rest
    else pair :: insertPair key value rest

/-- Setting a value adds no key but its own. -/
theorem mem_insertPair {key : Nat} {value : α} {pairs : List (Nat × α)} {pair : Nat × α}
    (member : pair ∈ insertPair key value pairs) : pair = (key, value) ∨ pair ∈ pairs := by
  induction pairs with
  | nil => exact .inl (by simpa [insertPair] using member)
  | cons head rest ih =>
    unfold insertPair at member
    split at member
    · simpa using member
    · split at member
      · rcases List.mem_cons.1 member with rfl | old
        · exact .inl rfl
        · exact .inr (List.mem_cons_of_mem _ old)
      · rcases List.mem_cons.1 member with rfl | new
        · exact .inr (List.mem_cons_self ..)
        · exact (ih new).imp_right (List.mem_cons_of_mem _)

/-- Setting a value keeps the keys ascending. -/
theorem insertPair_ascending (key : Nat) (value : α) {pairs : List (Nat × α)}
    (ascending : pairs.Pairwise fun left right => left.1 < right.1) :
    (insertPair key value pairs).Pairwise fun left right => left.1 < right.1 := by
  induction pairs with
  | nil => simp [insertPair]
  | cons head rest ih =>
    obtain ⟨below, rest_ascending⟩ := List.pairwise_cons.1 ascending
    unfold insertPair
    split
    case isTrue before =>
      refine List.pairwise_cons.2 ⟨fun pair member => ?_, ascending⟩
      rcases List.mem_cons.1 member with rfl | later
      · exact before
      · exact Nat.lt_trans before (below pair later)
    case isFalse notBefore =>
      split
      case isTrue same => exact List.pairwise_cons.2 ⟨by simpa [same] using below, rest_ascending⟩
      case isFalse different =>
        refine List.pairwise_cons.2 ⟨fun pair member => ?_, ih rest_ascending⟩
        rcases mem_insertPair member with rfl | old
        · show head.1 < key
          omega
        · exact below pair old

/-- The map with the value of one key set; an earlier value of that key is lost. -/
def insert (map : NatMap α) (key : Nat) (value : α) : NatMap α :=
  ⟨insertPair key value map.pairs, insertPair_ascending key value map.ascending⟩

def get? (map : NatMap α) (key : Nat) : Option α := map.pairs.lookup key

def isEmpty (map : NatMap α) : Bool := map.pairs.isEmpty

/-- The map that setting the given values one after the other leads to. -/
def ofList (pairs : List (Nat × α)) : NatMap α :=
  pairs.foldl (fun map pair => map.insert pair.1 pair.2) empty

end NatMap

end CompiledViews
