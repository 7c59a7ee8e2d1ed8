import CompiledViews.Proofs.FileTree.Path
import Mathlib.Data.List.Nodup

/-!
# Places in a file tree

What stands at a place, before and after the entries of a directory are replaced, and when a tree
holds all that another one holds.
-/

namespace CompiledViews

namespace Node

variable {entries : List (Text × Node)} {name other : Text} {node new : Node}

section entries

theorem mem_of_findEntry (found : findEntry name entries = some node) : (name, node) ∈ entries := by
  induction entries with
  | nil => cases found
  | cons entry entries ih =>
      rw [findEntry] at found
      split_ifs at found with isFirst
      · rcases Option.some.inj found with rfl
        exact isFirst ▸ List.mem_cons_self
      · exact List.mem_cons_of_mem entry (ih found)

theorem findEntry_of_mem (distinct : (entries.map Prod.fst).Nodup)
    (member : (name, node) ∈ entries) : findEntry name entries = some node := by
  induction entries with
  | nil => cases member
  | cons entry entries ih =>
      rw [List.map_cons, List.nodup_cons] at distinct
      rcases List.mem_cons.1 member with rfl | later
      · exact if_pos rfl
      · rw [findEntry, if_neg, ih distinct.2 later]
        rintro rfl
        exact distinct.1 (List.mem_map.2 ⟨_, later, rfl⟩)

theorem findEntry_isSome_iff : (findEntry name entries).isSome ↔ name ∈ entries.map Prod.fst := by
  induction entries with
  | nil => simp [findEntry]
  | cons entry entries ih =>
      rw [findEntry, List.map_cons, List.mem_cons, ← ih]
      split_ifs with isFirst
      · simp [isFirst]
      · simp [Ne.symm isFirst]

theorem findEntry_setEntry (name other : Text) (new : Node) (entries : List (Text × Node)) :
    findEntry other (setEntry name new entries) =
      if other = name then some new else findEntry other entries := by
  induction entries with
  | nil => simp [setEntry, findEntry, eq_comm]
  | cons entry entries ih =>
      rw [setEntry]
      split_ifs with isFirst isOther isOther
      · simp [findEntry, isOther]
      · simp [findEntry, isFirst, Ne.symm isOther]
      · rw [findEntry, if_neg (isOther ▸ isFirst), ih, if_pos isOther]
      · rw [findEntry, findEntry, ih, if_neg isOther]

theorem findEntry_filter (wanted : Text → Bool) (name : Text) (entries : List (Text × Node)) :
    findEntry name (entries.filter fun entry => wanted entry.1) =
      if wanted name then findEntry name entries else none := by
  induction entries with
  | nil => simp [findEntry]
  | cons entry entries ih =>
      rw [List.filter_cons]
      by_cases isFirst : entry.1 = name
      · cases isWanted : wanted name <;> simp [findEntry, isFirst, isWanted, ih]
      · split_ifs <;> simp_all [findEntry]

theorem mem_setEntry {entry : Text × Node} (member : entry ∈ setEntry name new entries) :
    entry = (name, new) ∨ entry ∈ entries := by
  induction entries with
  | nil => simpa [setEntry] using member
  | cons first entries ih =>
      rw [setEntry] at member
      split_ifs at member
      · rw [List.mem_cons] at member
        exact member.imp_right (List.mem_cons_of_mem first)
      · rcases List.mem_cons.1 member with rfl | later
        · exact .inr List.mem_cons_self
        · exact (ih later).imp_right (List.mem_cons_of_mem first)

theorem setEntry_eq_self (found : findEntry name entries = some node) :
    setEntry name node entries = entries := by
  induction entries with
  | nil => cases found
  | cons entry entries ih =>
      rw [findEntry] at found
      rw [setEntry]
      split_ifs at found ⊢ with isFirst
      · rcases Option.some.inj found with rfl
        rw [← isFirst]
      · rw [ih found]

theorem setEntry_setEntry (name : Text) (node new : Node) (entries : List (Text × Node)) :
    setEntry name new (setEntry name node entries) = setEntry name new entries := by
  induction entries with
  | nil => simp [setEntry]
  | cons entry entries ih =>
      rw [setEntry]
      split_ifs with isFirst
      · simp [setEntry, isFirst]
      · simp [setEntry, isFirst, ih]

/-- The names of the entries are as before where there was one with this name. -/
theorem map_fst_setEntry_of_some (found : (findEntry name entries).isSome) :
    (setEntry name new entries).map Prod.fst = entries.map Prod.fst := by
  induction entries with
  | nil => cases found
  | cons entry entries ih =>
      rw [findEntry] at found
      rw [setEntry]
      split_ifs at found ⊢ with isFirst
      · simp [isFirst]
      · simp [ih found]

theorem setEntry_eq_append (missing : findEntry name entries = none) :
    setEntry name new entries = entries ++ [(name, new)] := by
  induction entries with
  | nil => rfl
  | cons entry entries ih =>
      rw [findEntry] at missing
      rw [setEntry]
      split_ifs at missing ⊢
      rw [ih missing, List.cons_append]

end entries

section at?

variable {root child old : Node} {place rest : List Text}

@[simp]
theorem at?_nil : root.at? [] = some root := by
  cases root <;> rfl

theorem at?_cons (name : Text) (rest : List Text) (entries : List (Text × Node)) :
    (directory entries).at? (name :: rest) = (findEntry name entries).bind (·.at? rest) := by
  rw [at?]
  cases findEntry name entries <;> rfl

/-- What stands below an entry stands in a directory. -/
theorem at?_cons_eq_some_iff : root.at? (name :: rest) = some node ↔
    ∃ entries child, root = directory entries ∧ findEntry name entries = some child ∧
      child.at? rest = some node := by
  cases root with
  | directory entries => simp [at?_cons, Option.bind_eq_some_iff]
  | file content => simp [at?]
  | link target => simp [at?]

theorem at?_append (root : Node) (place rest : List Text) :
    root.at? (place ++ rest) = (root.at? place).bind (·.at? rest) := by
  induction place generalizing root with
  | nil => simp
  | cons name place ih =>
      cases root with
      | directory entries =>
          rw [List.cons_append, at?_cons, at?_cons, Option.bind_assoc]
          exact Option.bind_congr fun child _ => ih child
      | file content => rfl
      | link target => rfl

theorem at?_concat (isDirectory : root.at? place = some (directory entries)) (name : Text) :
    root.at? (place ++ [name]) = findEntry name entries := by
  rw [at?_append, isDirectory, Option.bind_some, at?_cons]
  cases findEntry name entries <;> simp

end at?

section put

variable {root old : Node} {place : List Text}

/-- What is put at a place stands there. -/
theorem at?_put_append (found : root.at? place = some old) (new : Node) (rest : List Text) :
    (put new place root).at? (place ++ rest) = new.at? rest := by
  induction place generalizing root with
  | nil => cases root <;> rfl
  | cons name place ih =>
      rcases at?_cons_eq_some_iff.1 found with ⟨entries, child, rfl, isChild, below⟩
      rw [put, List.cons_append, at?_cons, findEntry_setEntry, if_pos rfl, isChild]
      exact ih below

theorem put_self (found : root.at? place = some old) : put old place root = root := by
  induction place generalizing root with
  | nil =>
      rw [at?_nil] at found
      rcases Option.some.inj found with rfl
      cases root <;> rfl
  | cons name place ih =>
      rcases at?_cons_eq_some_iff.1 found with ⟨entries, child, rfl, isChild, below⟩
      rw [put, isChild, Option.getD_some, ih below, setEntry_eq_self isChild]

theorem put_put (found : root.at? place = some old) (first new : Node) :
    put new place (put first place root) = put new place root := by
  induction place generalizing root with
  | nil => cases root <;> cases first <;> rfl
  | cons name place ih =>
      rcases at?_cons_eq_some_iff.1 found with ⟨entries, child, rfl, isChild, below⟩
      rw [put, put, put, findEntry_setEntry, if_pos rfl, isChild, setEntry_setEntry]
      simp only [Option.getD_some, ih below]

/-- To put something under a name is to give the directory other entries. -/
theorem put_concat (found : root.at? place = some (directory entries)) (name : Text) (new : Node) :
    put new (place ++ [name]) root = put (directory (setEntry name new entries)) place root := by
  induction place generalizing root with
  | nil =>
      rw [at?_nil] at found
      rcases Option.some.inj found with rfl
      cases (findEntry name entries).getD (directory []) <;> rfl
  | cons first place ih =>
      rcases at?_cons_eq_some_iff.1 found with ⟨others, child, rfl, isChild, below⟩
      rw [List.cons_append, put, put, isChild, Option.getD_some, ih below]

/-- To remove a name is to give the directory other entries. -/
theorem remove_concat (found : root.at? place = some (directory entries)) (name : Text) :
    root.remove (place ++ [name]) =
      put (directory (entries.filter fun entry => entry.1 != name)) place root := by
  induction place generalizing root with
  | nil =>
      rw [at?_nil] at found
      rcases Option.some.inj found with rfl
      rfl
  | cons first place ih =>
      rcases at?_cons_eq_some_iff.1 found with ⟨others, child, rfl, isChild, below⟩
      have longer : place ++ [name] ≠ [] := by simp
      rw [List.cons_append, put, isChild, Option.getD_some, ← ih below]
      cases isRest : place ++ [name] with
      | nil => exact absurd isRest longer
      | cons second rest => simp [remove, isChild]

end put

/-- What is seen of a node: of a directory, only the names of its entries. -/
inductive Face where
  | file (content : Bytes)
  | directory (names : List Text)
  | link (target : Text)
deriving DecidableEq

def face : Node → Face
  | .file content => .file content
  | .directory entries => .directory (entries.map Prod.fst)
  | .link target => .link target

/-- What is seen at a place. -/
def faceAt? (root : Node) (place : List Text) : Option Face := (root.at? place).map face

theorem exists_directory_of_face {names : List Text} (isFace : node.face = .directory names) :
    ∃ entries, node = directory entries ∧ entries.map Prod.fst = names := by
  cases node with
  | directory entries => exact ⟨entries, rfl, Face.directory.inj isFace⟩
  | file content => cases isFace
  | link target => cases isFace

section frame

variable {root old : Node} {place elsewhere : List Text}

/-- What is put at a place is seen only there and below. -/
theorem faceAt?_put (found : root.at? place = some old) (new : Node)
    (outside : ¬place <+: elsewhere) :
    (put new place root).faceAt? elsewhere = root.faceAt? elsewhere := by
  induction place generalizing root elsewhere with
  | nil => exact absurd List.nil_prefix outside
  | cons name place ih =>
      rcases at?_cons_eq_some_iff.1 found with ⟨entries, child, rfl, isChild, below⟩
      rw [put, isChild, Option.getD_some]
      cases elsewhere with
      | nil => simp [faceAt?, face, map_fst_setEntry_of_some, isChild]
      | cons first rest =>
          rw [List.cons_prefix_cons, not_and] at outside
          rw [faceAt?, faceAt?, at?_cons, at?_cons, findEntry_setEntry]
          split_ifs with same
          · rw [same, isChild]
            exact ih below (outside same.symm)
          · rfl

end frame

/-- No two entries of a directory have the same name, and each name can be one. -/
def WellFormed (root : Node) : Prop :=
  ∀ place entries, root.at? place = some (directory entries) →
    (entries.map Prod.fst).Nodup ∧ ∀ name ∈ entries.map Prod.fst, Path.IsEntryName name

namespace WellFormed

variable {root child old : Node} {place : List Text}

theorem at? (wellFormed : root.WellFormed) (found : root.at? place = some child) :
    child.WellFormed := by
  intro rest entries below
  apply wellFormed (place ++ rest)
  rw [at?_append, found]
  exact below

theorem findEntry (wellFormed : (directory entries).WellFormed)
    (found : Node.findEntry name entries = some child) : child.WellFormed := by
  have isChild : (Node.directory entries).at? [name] = some child := by
    rw [at?_cons, found, Option.bind_some, at?_nil]
  exact wellFormed.at? isChild

theorem isEntryName_of_at? (wellFormed : root.WellFormed) (found : root.at? place = some child) :
    ∀ name ∈ place, Path.IsEntryName name := by
  induction place generalizing root with
  | nil => simp
  | cons first place ih =>
      rcases at?_cons_eq_some_iff.1 found with ⟨entries, node, rfl, isNode, below⟩
      rw [List.forall_mem_cons]
      refine ⟨(wellFormed [] entries at?_nil).2 first ?_, ih (wellFormed.findEntry isNode) below⟩
      rw [← findEntry_isSome_iff, isNode]
      rfl

theorem file (content : Bytes) : (Node.file content).WellFormed := by
  intro place entries found
  cases place <;> cases found

theorem link (target : Text) : (Node.link target).WellFormed := by
  intro place entries found
  cases place <;> cases found

theorem directory (distinct : (entries.map Prod.fst).Nodup)
    (areNames : ∀ name ∈ entries.map Prod.fst, Path.IsEntryName name)
    (below : ∀ entry ∈ entries, entry.2.WellFormed) : (Node.directory entries).WellFormed := by
  intro place others found
  cases place with
  | nil =>
      rw [at?_nil] at found
      rcases Node.directory.inj (Option.some.inj found) with rfl
      exact ⟨distinct, areNames⟩
  | cons name rest =>
      rw [at?_cons, Option.bind_eq_some_iff] at found
      rcases found with ⟨child, isChild, found⟩
      exact below _ (mem_of_findEntry isChild) rest others found

theorem empty : (Node.directory []).WellFormed :=
  directory List.nodup_nil (by simp) (by simp)

theorem setEntry (wellFormed : (Node.directory entries).WellFormed)
    (isName : Path.IsEntryName name) (newWellFormed : new.WellFormed) :
    (Node.directory (Node.setEntry name new entries)).WellFormed := by
  rcases wellFormed [] entries at?_nil with ⟨distinct, areNames⟩
  have below : ∀ entry ∈ Node.setEntry name new entries, entry.2.WellFormed := by
    intro entry member
    rcases mem_setEntry member with rfl | isOld
    · exact newWellFormed
    · exact wellFormed.findEntry (findEntry_of_mem distinct isOld)
  cases found : Node.findEntry name entries with
  | some old =>
      have same : (Node.setEntry name new entries).map Prod.fst = entries.map Prod.fst :=
        map_fst_setEntry_of_some (by simp [found])
      exact directory (same ▸ distinct) (same ▸ areNames) below
  | none =>
      have absent : name ∉ entries.map Prod.fst := by
        rw [← findEntry_isSome_iff, found]
        simp
      have more : (Node.setEntry name new entries).map Prod.fst =
          entries.map Prod.fst ++ [name] := by
        rw [setEntry_eq_append found, List.map_append, List.map_singleton]
      refine directory ?_ ?_ below
      · rw [more, ← List.concat_eq_append]
        exact distinct.concat absent
      · rw [more, List.forall_mem_append, List.forall_mem_singleton]
        exact ⟨areNames, isName⟩

theorem filter (wellFormed : (Node.directory entries).WellFormed) (wanted : Text × Node → Bool) :
    (Node.directory (entries.filter wanted)).WellFormed := by
  rcases wellFormed [] entries at?_nil with ⟨distinct, areNames⟩
  have fewer := (List.filter_sublist (p := wanted) (l := entries)).map Prod.fst
  have areNamesStill := fun name member => areNames name (fewer.subset member)
  refine directory (distinct.sublist fewer) areNamesStill ?_
  intro entry member
  exact wellFormed.findEntry (findEntry_of_mem distinct (List.mem_of_mem_filter member))

theorem put (wellFormed : root.WellFormed) (found : root.at? place = some old)
    (newWellFormed : new.WellFormed) : (Node.put new place root).WellFormed := by
  intro elsewhere others isDirectory
  by_cases isBelow : place <+: elsewhere
  · rcases isBelow with ⟨rest, rfl⟩
    rw [at?_put_append found] at isDirectory
    exact newWellFormed rest others isDirectory
  · have same := faceAt?_put found new isBelow
    rw [faceAt?, isDirectory, eq_comm, faceAt?, Option.map_some, Option.map_eq_some_iff] at same
    rcases same with ⟨node, isNode, isFace⟩
    rcases exists_directory_of_face isFace with ⟨entries, rfl, sameNames⟩
    rw [← sameNames]
    exact wellFormed elsewhere entries isNode

end WellFormed

/-- Whether a node can stand for another one: a file for a file, whatever they hold, a directory for
a directory, and a link for the same link. -/
def Alike : Node → Node → Prop
  | file _, file _ => True
  | directory _, directory _ => True
  | link target, link other => target = other
  | _, _ => False

theorem Alike.refl (node : Node) : node.Alike node := by
  cases node <;> trivial

theorem Alike.trans {first second third : Node} (left : first.Alike second)
    (right : second.Alike third) : first.Alike third := by
  cases first <;> cases second <;> cases third <;> simp_all [Alike]

theorem alike_of_face_eq {node other : Node} (same : node.face = other.face) :
    node.Alike other := by
  cases node <;> cases other <;> simp_all [Alike, face]

/-- A tree that is part of another one: what stands somewhere in it has its like there in the
other. -/
def Within (small large : Node) : Prop :=
  ∀ place node, small.at? place = some node → ∃ other, large.at? place = some other ∧
    node.Alike other

namespace Within

variable {small large root old : Node} {few many : List (Text × Node)} {place : List Text}

theorem refl (root : Node) : root.Within root :=
  fun _ node found => ⟨node, found, .refl node⟩

theorem trans {middle : Node} (left : small.Within middle) (right : middle.Within large) :
    small.Within large := by
  intro place node found
  rcases left place node found with ⟨between, isBetween, like⟩
  rcases right place between isBetween with ⟨other, isOther, likeOther⟩
  exact ⟨other, isOther, like.trans likeOther⟩

theorem isDirectory (within : small.Within large) (found : small.at? place = some (directory few)) :
    ∃ many, large.at? place = some (directory many) := by
  rcases within place _ found with ⟨other, isOther, like⟩
  cases other with
  | directory many => exact ⟨many, isOther⟩
  | file content => exact like.elim
  | link target => exact like.elim

theorem directory
    (below : ∀ name child, findEntry name few = some child →
      ∃ other, findEntry name many = some other ∧ child.Within other) :
    (Node.directory few).Within (Node.directory many) := by
  intro place node found
  cases place with
  | nil =>
      rw [at?_nil] at found
      rcases Option.some.inj found with rfl
      exact ⟨_, at?_nil, trivial⟩
  | cons name rest =>
      rw [at?_cons, Option.bind_eq_some_iff] at found
      rcases found with ⟨child, isChild, found⟩
      rcases below name child isChild with ⟨other, isOther, within⟩
      rw [at?_cons, isOther]
      exact within rest node found

theorem file (old content : Bytes) : (Node.file old).Within (Node.file content) := by
  intro place node found
  cases place with
  | nil =>
      rcases Option.some.inj found with rfl
      exact ⟨_, at?_nil, trivial⟩
  | cons name rest => cases found

theorem filter (wanted : Text → Bool) (entries : List (Text × Node)) :
    (Node.directory (entries.filter fun entry => wanted entry.1)).Within
      (Node.directory entries) := by
  apply directory
  intro name child isChild
  rw [findEntry_filter, Option.ite_none_right_eq_some] at isChild
  exact ⟨child, isChild.2, refl child⟩

theorem setEntry (name : Text) (new : Node) (entries : List (Text × Node))
    (within : ∀ child, findEntry name entries = some child → child.Within new) :
    (Node.directory entries).Within (Node.directory (Node.setEntry name new entries)) := by
  apply directory
  intro other child isChild
  rw [findEntry_setEntry]
  split_ifs with same
  · exact ⟨new, rfl, within child (same ▸ isChild)⟩
  · exact ⟨child, isChild, refl child⟩

theorem setEntry_of_none (missing : findEntry name entries = none) (new : Node) :
    (Node.directory entries).Within (Node.directory (Node.setEntry name new entries)) := by
  apply setEntry
  intro child found
  rw [missing] at found
  cases found

theorem put (found : root.at? place = some old) (within : small.Within large) :
    (Node.put small place root).Within (Node.put large place root) := by
  intro elsewhere node isNode
  by_cases isBelow : place <+: elsewhere
  · rcases isBelow with ⟨rest, rfl⟩
    rw [at?_put_append found] at isNode ⊢
    exact within rest node isNode
  · have same : (Node.put small place root).faceAt? elsewhere =
        (Node.put large place root).faceAt? elsewhere := by
      rw [faceAt?_put found _ isBelow, faceAt?_put found _ isBelow]
    rw [faceAt?, isNode, eq_comm, faceAt?, Option.map_some, Option.map_eq_some_iff] at same
    rcases same with ⟨other, isOther, isFace⟩
    exact ⟨other, isOther, alike_of_face_eq isFace.symm⟩

end Within

section places

variable {place : List Text}

theorem mem_placesOf {item : List Text × Node} : item ∈ placesOf entries ↔
    ∃ name child, (name, child) ∈ entries ∧ (item = ([name], child) ∨
      ∃ place node, (place, node) ∈ child.places ∧ item = (name :: place, node)) := by
  induction entries with
  | nil => simp [placesOf]
  | cons entry entries ih =>
      rcases entry with ⟨name, child⟩
      simp only [placesOf, List.mem_append, List.mem_cons, List.mem_map, ih, Prod.exists,
        Prod.mk.injEq]
      constructor
      · rintro ((isFirst | ⟨place, node, member, isItem⟩) | ⟨other, node, member, found⟩)
        · exact ⟨name, child, .inl ⟨rfl, rfl⟩, .inl isFirst⟩
        · exact ⟨name, child, .inl ⟨rfl, rfl⟩, .inr ⟨place, node, member, isItem.symm⟩⟩
        · exact ⟨other, node, .inr member, found⟩
      · rintro ⟨other, node, ⟨rfl, rfl⟩ | member, found⟩
        · rcases found with isFirst | ⟨place, below, member, isItem⟩
          · exact .inl (.inl isFirst)
          · exact .inl (.inr ⟨place, below, member, isItem.symm⟩)
        · exact .inr ⟨other, node, member, found⟩

/-- The places of a tree are those at which something stands below its root. -/
theorem mem_places_iff {root : Node} (wellFormed : root.WellFormed) :
    (place, node) ∈ root.places ↔ place ≠ [] ∧ root.at? place = some node := by
  induction place generalizing root node with
  | nil =>
      cases root with
      | directory entries => simp [places, mem_placesOf]
      | file content => simp [places]
      | link target => simp [places]
  | cons name rest ih =>
      cases root with
      | directory entries =>
          have distinct := (wellFormed [] entries at?_nil).1
          have found (child : Node) :
              (name, child) ∈ entries ↔ findEntry name entries = some child :=
            ⟨findEntry_of_mem distinct, mem_of_findEntry⟩
          simp only [places, mem_placesOf, at?_cons, Option.bind_eq_some_iff, ne_eq, reduceCtorEq,
            not_false_eq_true, true_and, Prod.mk.injEq, List.cons.injEq]
          constructor
          · rintro ⟨other, child, member, ⟨⟨rfl, rfl⟩, rfl⟩ | ⟨_, _, below, ⟨rfl, rfl⟩, rfl⟩⟩
            · exact ⟨node, (found node).1 member, at?_nil⟩
            · have isChild := (found child).1 member
              exact ⟨child, isChild, ((ih (wellFormed.findEntry isChild)).1 below).2⟩
          · rintro ⟨child, isChild, below⟩
            refine ⟨name, child, (found child).2 isChild, ?_⟩
            cases rest with
            | nil =>
                rw [at?_nil] at below
                exact .inl ⟨⟨rfl, rfl⟩, (Option.some.inj below).symm⟩
            | cons second rest =>
                have member := (ih (wellFormed.findEntry isChild)).2 ⟨by simp, below⟩
                exact .inr ⟨_, _, member, ⟨rfl, rfl⟩, rfl⟩
      | file content => simp [places, at?]
      | link target => simp [places, at?]

theorem exists_cons_of_mem_placesOf (member : place ∈ (placesOf entries).map Prod.fst) :
    ∃ name ∈ entries.map Prod.fst, ∃ rest, place = name :: rest := by
  rcases List.mem_map.1 member with ⟨item, isItem, rfl⟩
  rcases mem_placesOf.1 isItem with ⟨name, child, isEntry, rfl | ⟨rest, _, _, rfl⟩⟩
  · exact ⟨name, List.mem_map.2 ⟨_, isEntry, rfl⟩, [], rfl⟩
  · exact ⟨name, List.mem_map.2 ⟨_, isEntry, rfl⟩, rest, rfl⟩

theorem nil_not_mem_places (root : Node) : [] ∉ root.places.map Prod.fst := by
  intro member
  cases root with
  | directory entries =>
      rcases exists_cons_of_mem_placesOf member with ⟨name, _, rest, impossible⟩
      cases impossible
  | file content => cases member
  | link target => cases member

theorem nodup_placesOf (distinct : (entries.map Prod.fst).Nodup)
    (below : ∀ entry ∈ entries, (entry.2.places.map Prod.fst).Nodup) :
    ((placesOf entries).map Prod.fst).Nodup := by
  induction entries with
  | nil => exact List.nodup_nil
  | cons entry entries ih =>
      rcases entry with ⟨name, child⟩
      rw [List.map_cons, List.nodup_cons] at distinct
      rw [List.forall_mem_cons] at below
      have split : (placesOf ((name, child) :: entries)).map Prod.fst =
          ([] :: child.places.map Prod.fst).map (name :: ·) ++ (placesOf entries).map Prod.fst := by
        simp [placesOf, Function.comp_def]
      rw [split, List.nodup_append]
      refine ⟨?_, ih distinct.2 below.2, ?_⟩
      · exact (List.nodup_cons.2 ⟨nil_not_mem_places child, below.1⟩).map List.cons_injective
      · intro place isFirst other isLater same
        rcases List.mem_map.1 isFirst with ⟨rest, _, rfl⟩
        rcases exists_cons_of_mem_placesOf isLater with ⟨second, isSecond, others, rfl⟩
        rcases List.cons.inj same with ⟨rfl, _⟩
        exact distinct.1 isSecond

/-- No place of a tree comes twice. -/
theorem nodup_places : (root : Node) → root.WellFormed → (root.places.map Prod.fst).Nodup
  | .directory entries, wellFormed =>
    have distinct := (wellFormed [] entries at?_nil).1
    nodup_placesOf distinct fun entry member =>
      nodup_places entry.2 (wellFormed.findEntry (findEntry_of_mem distinct member))
  | .file _, _ => List.nodup_nil
  | .link _, _ => List.nodup_nil
termination_by root => sizeOf root
decreasing_by
  have inEntries := List.sizeOf_lt_of_mem member
  rcases entry with ⟨name, child⟩
  simp only [Prod.mk.sizeOf_spec, directory.sizeOf_spec] at inEntries ⊢
  omega

end places

end Node

namespace FileTree

variable {tree : FileTree} {place : List Text} {entries few many : List (Text × Node)}

/-- The tree with other entries of the directory at a place. -/
def withEntries (tree : FileTree) (place : List Text) (entries : List (Text × Node)) : FileTree :=
  { tree with root := Node.put (.directory entries) place tree.root }

/-- Whether all that a tree holds has its like in another one. -/
def Within (small large : FileTree) : Prop :=
  small.root.Within large.root ∧ small.current = large.current

theorem Within.refl (tree : FileTree) : tree.Within tree := ⟨.refl _, rfl⟩

theorem Within.trans {first second third : FileTree} (left : first.Within second)
    (right : second.Within third) : first.Within third :=
  ⟨left.1.trans right.1, left.2.trans right.2⟩

section withEntries

variable {old : List (Text × Node)}
  (isDirectory : tree.root.at? place = some (.directory old))

include isDirectory

theorem withEntries_self : tree.withEntries place old = tree := by
  rw [withEntries, Node.put_self isDirectory]

theorem withEntries_withEntries :
    (tree.withEntries place few).withEntries place many = tree.withEntries place many := by
  simp only [withEntries, Node.put_put isDirectory]

theorem at?_withEntries :
    (tree.withEntries place entries).root.at? place = some (.directory entries) := by
  have found := Node.at?_put_append isDirectory (.directory entries) []
  rwa [List.append_nil, Node.at?_nil] at found

theorem at?_withEntries_concat (name : Text) :
    (tree.withEntries place entries).root.at? (place ++ [name]) = Node.findEntry name entries :=
  Node.at?_concat (at?_withEntries isDirectory) name

theorem wellFormed_withEntries (wellFormed : tree.root.WellFormed)
    (newWellFormed : (Node.directory entries).WellFormed) :
    (tree.withEntries place entries).root.WellFormed :=
  wellFormed.put isDirectory newWellFormed

theorem within_withEntries (within : (Node.directory few).Within (.directory many)) :
    (tree.withEntries place few).Within (tree.withEntries place many) :=
  ⟨.put isDirectory within, rfl⟩

end withEntries

end FileTree

end CompiledViews
