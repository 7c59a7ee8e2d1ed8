import CompiledViews.Proofs.FileTree.Places

/-!
# Following paths

A path leads through its names one after the other, so the path of an entry leads to the directory
first. What a path leads to in a tree it leads to in every tree that holds this one.
-/

namespace CompiledViews.FileTree

variable {root small large : Node} {creating : Bool} {links : Nat} {place final : List Text}
  {names rest : List Text}

theorem follow_of_arrived (walked : walk root creating place names = .ok (.arrived final)) :
    follow root creating links place names = .ok final := by
  cases links <;> simp [follow, walked]

theorem follow_slash {entries : List (Text × Node)}
    (isDirectory : root.at? place = some (.directory entries)) :
    follow root false links place [[]] = .ok place :=
  follow_of_arrived (by simp [walk, isDirectory])

/-- Names are looked up in directories. -/
theorem exists_directory_of_follow_cons {name : Text}
    (leads : follow root creating links place (name :: rest) = .ok final) :
    ∃ entries, root.at? place = some (.directory entries) := by
  cases found : root.at? place with
  | none => cases links <;> simp [follow, walk, found] at leads
  | some node =>
      cases node with
      | directory entries => exact ⟨entries, rfl⟩
      | file content => cases links <;> simp [follow, walk, found] at leads
      | link target => cases links <;> simp [follow, walk, found] at leads

/-- A name that leads somewhere is that of an entry, unless it has a meaning of its own. -/
theorem of_follow_singleton {name : Text} {entries : List (Text × Node)}
    (isDirectory : root.at? place = some (.directory entries))
    (leads : follow root false links place [name] = .ok final) (nonempty : name ≠ [])
    (ordinary : ¬(name = "." ∨ name = "..")) :
    Text.utf8Length name ≤ maxNameBytes ∧ (Node.findEntry name entries).isSome := by
  rw [not_or] at ordinary
  have notHere : ¬(name = [] ∨ name = ".") := by
    rw [not_or]
    exact ⟨nonempty, ordinary.1⟩
  have walked : ∃ reached, walk root false place [name] = .ok reached := by
    cases walked : walk root false place [name] with
    | error error => cases links <;> simp [follow, walked] at leads
    | ok reached => exact ⟨reached, rfl⟩
  rcases walked with ⟨reached, walked⟩
  simp only [walk, isDirectory, if_neg notHere, if_neg ordinary.2, Bool.false_eq_true, false_and,
    if_false] at walked
  split_ifs at walked with long
  refine ⟨Nat.not_lt.1 long, ?_⟩
  cases found : Node.findEntry name entries with
  | none => simp [found] at walked
  | some node => rfl

/-- A slash at the end leads to the directory before it. -/
theorem eq_of_follow_slash (leads : follow root false links place [[]] = .ok final) :
    final = place := by
  rcases exists_directory_of_follow_cons leads with ⟨entries, isDirectory⟩
  exact (Except.ok.inj ((follow_slash isDirectory).symm.trans leads)).symm

section append

/-- Names that a walk can go on with: where a file is to be created, more than a slash. -/
def GoesOn (creating : Bool) (rest : List Text) : Prop :=
  creating = true → rest ≠ [] ∧ rest ≠ [[]]

theorem goesOn_false (rest : List Text) : GoesOn false rest := nofun

theorem goesOn_singleton {name : Text} (nonempty : name ≠ []) : GoesOn creating [name] :=
  fun _ => ⟨by simp, by simpa using nonempty⟩

theorem GoesOn.append (goesOn : GoesOn creating rest) (names : List Text) :
    GoesOn creating (names ++ rest) := by
  intro isCreating
  rcases goesOn isCreating with ⟨nonempty, moreThanSlash⟩
  refine ⟨by simp [nonempty], ?_⟩
  rw [Ne, List.append_eq_singleton_iff]
  rintro (⟨_, isSlash⟩ | ⟨_, isNil⟩)
  · exact moreThanSlash isSlash
  · exact nonempty isNil

/-- How a walk goes on through more names. -/
def Walk.goOn (root : Node) (creating : Bool) (rest : List Text) : Walk → Except OsError Walk
  | .arrived place => walk root creating place rest
  | .detour place target left => .ok (.detour place target (left ++ rest))

theorem walk_append (goesOn : GoesOn creating rest) (place names : List Text) :
    walk root creating place (names ++ rest) =
      (walk root false place names).bind (Walk.goOn root creating rest) := by
  induction names generalizing place with
  | nil => rfl
  | cons name names ih =>
      have noSlash : ¬(creating = true ∧ names ++ rest = [[]]) :=
        fun ⟨isCreating, isSlash⟩ => (goesOn.append names isCreating).2 isSlash
      have notLast : ¬(creating = true ∧ names ++ rest = []) :=
        fun ⟨isCreating, isNil⟩ => (goesOn.append names isCreating).1 isNil
      rw [List.cons_append, walk, walk]
      cases found : root.at? place with
      | none => rfl
      | some node =>
          cases node with
          | file content => rfl
          | link target => rfl
          | directory entries =>
              simp only [Bool.false_eq_true, false_and, if_false, if_neg noSlash, if_neg notLast]
              split_ifs
              · exact ih place
              · exact ih place.dropLast
              · rfl
              · cases Node.findEntry name entries with
                | none => rfl
                | some child => cases child <;> first | exact ih _ | rfl

/-- A path either fails on its way, or it leads somewhere and goes on from there. -/
theorem follow_append (root : Node) (links : Nat) (place names : List Text) :
    (∃ error, follow root false links place names = .error error ∧
      ∀ {creating rest}, GoesOn creating rest →
        follow root creating links place (names ++ rest) = .error error) ∨
    ∃ final left, follow root false links place names = .ok final ∧
      ∀ {creating rest}, GoesOn creating rest →
        follow root creating links place (names ++ rest) =
          follow root creating left final rest := by
  induction links generalizing place names with
  | zero =>
      cases walked : walk root false place names with
      | error error =>
          refine .inl ⟨error, by simp [follow, walked], fun goesOn => ?_⟩
          simp [follow, walk_append goesOn, walked, Except.bind]
      | ok reached =>
          cases reached with
          | arrived final =>
              refine .inr ⟨final, 0, by simp [follow, walked], fun goesOn => ?_⟩
              simp [follow, walk_append goesOn, walked, Except.bind, Walk.goOn]
          | detour directory target left =>
              refine .inl ⟨.tooManyLinks, by simp [follow, walked], fun goesOn => ?_⟩
              simp [follow, walk_append goesOn, walked, Except.bind, Walk.goOn]
  | succ links ih =>
      cases walked : walk root false place names with
      | error error =>
          refine .inl ⟨error, by simp [follow, walked], fun goesOn => ?_⟩
          simp [follow, walk_append goesOn, walked, Except.bind]
      | ok reached =>
          cases reached with
          | arrived final =>
              refine .inr ⟨final, links + 1, by simp [follow, walked], fun goesOn => ?_⟩
              rw [follow, follow, walk_append goesOn, walked]
              rfl
          | detour directory target left =>
              rcases ih (if Path.isAbsolute target then [] else directory)
                (Path.steps target ++ left) with
                ⟨error, fails, failsLater⟩ | ⟨final, others, leads, goesOnLater⟩
              · refine .inl ⟨error, by rw [follow, walked]; exact fails, fun goesOn => ?_⟩
                rw [follow, walk_append goesOn, walked, ← failsLater goesOn, List.append_assoc]
                rfl
              · refine .inr ⟨final, others, by rw [follow, walked]; exact leads, fun goesOn => ?_⟩
                rw [follow, walk_append goesOn, walked, ← goesOnLater goesOn, List.append_assoc]
                rfl

end append

section within

theorem walk_within (within : small.Within large) {reached : Walk}
    (walked : walk small false place names = .ok reached) :
    walk large false place names = .ok reached := by
  induction names generalizing place with
  | nil => exact walked
  | cons name names ih =>
      rw [walk] at walked ⊢
      cases found : small.at? place with
      | none => simp [found] at walked
      | some node =>
          cases node with
          | file content => simp [found] at walked
          | link target => simp [found] at walked
          | directory few =>
              rcases within.isDirectory found with ⟨many, isMany⟩
              simp only [found, Bool.false_eq_true, false_and, if_false] at walked
              simp only [isMany, Bool.false_eq_true, false_and, if_false]
              split_ifs at walked ⊢
              · exact ih walked
              · exact ih walked
              · cases isChild : Node.findEntry name few with
                | none => simp [isChild] at walked
                | some child =>
                    have there : small.at? (place ++ [name]) = some child := by
                      rw [Node.at?_concat found, isChild]
                    rcases within _ _ there with ⟨other, isOther, like⟩
                    rw [Node.at?_concat isMany] at isOther
                    rw [isChild] at walked
                    rw [isOther]
                    cases child <;> cases other <;>
                      first
                      | exact like.elim
                      | exact ih walked
                      | exact (show _ = _ from like) ▸ walked

theorem follow_within (within : small.Within large)
    (leads : follow small false links place names = .ok final) :
    follow large false links place names = .ok final := by
  induction links generalizing place names with
  | zero =>
      rw [follow] at leads ⊢
      cases walked : walk small false place names with
      | error error => simp [walked] at leads
      | ok reached =>
          rw [walk_within within walked]
          rwa [walked] at leads
  | succ links ih =>
      rw [follow] at leads ⊢
      cases walked : walk small false place names with
      | error error => simp [walked] at leads
      | ok reached =>
          rw [walk_within within walked]
          rw [walked] at leads
          cases reached with
          | arrived place => exact leads
          | detour directory target left => exact ih leads

/-- What a path leads to in a tree it leads to in every tree that holds this one. -/
theorem Within.locate {small large : FileTree} {path : Text} (within : small.Within large)
    (leads : small.locate path = .ok final) : large.locate path = .ok final := by
  rw [FileTree.locate] at leads ⊢
  cases checked : checkPath path with
  | error error => simp [checked, bind, Except.bind] at leads
  | ok _ =>
      rw [checked] at leads
      have sameStart : large.start path = small.start path := by
        rw [start, start, within.2]
      exact sameStart ▸ follow_within within.1 leads

end within

end CompiledViews.FileTree
