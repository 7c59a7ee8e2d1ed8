import CompiledViews.FileTree.Action
import CompiledViews.Proofs.FileTree.Following

/-!
# Entries of a directory

What the path of an entry leads to where that of its directory leads to a place, and what removing
and writing it do: the directory gets other entries, and nothing else changes.
-/

namespace CompiledViews.FileTree

variable {tree after : FileTree} {directory name path : Text} {place : List Text}
  {entries : List (Text × Node)}

theorem checkPath_eq_ok_iff : checkPath path = .ok () ↔
    '\x00' ∉ path ∧ path ≠ [] ∧ Text.utf8Length path ≤ maxPathBytes := by
  rw [checkPath]
  split_ifs with nul empty long
  · simp [List.contains_iff_mem.1 nul]
  · simp [empty]
  · simp [Nat.not_le.2 long]
  · rw [List.contains_iff_mem] at nul
    simp [nul, empty, Nat.not_lt.1 long]

theorem checkPath_join (checked : checkPath directory = .ok ()) (isName : Path.IsEntryName name) :
    checkPath (Path.join directory name) =
      if Text.utf8Length (Path.join directory name) ≤ maxPathBytes then .ok ()
      else .error .nameTooLong := by
  have noNul := (checkPath_eq_ok_iff.1 checked).1
  rw [← Path.nul_mem_join_iff isName, ← List.contains_iff_mem] at noNul
  rw [checkPath, if_neg noNul, if_neg (Path.join_ne_nil isName)]
  split_ifs <;> first | rfl | omega

theorem start_join (tree : FileTree) (isName : Path.IsEntryName name) :
    tree.start (Path.join directory name) = tree.start directory := by
  rw [start, start, Path.isAbsolute_join isName]

/-- Where the path of a directory leads, and the paths of its entries behind it. -/
structure LeadsTo (tree : FileTree) (directory : Text) (place : List Text)
    (entries : List (Text × Node)) : Prop where
  located : tree.locate directory = .ok place
  isDirectory : tree.root.at? place = some (.directory entries)

namespace LeadsTo

variable (leads : tree.LeadsTo directory place entries)

include leads

theorem checked : checkPath directory = .ok () := by
  have located := leads.located
  rw [locate] at located
  cases checked : checkPath directory with
  | error error => simp [checked, bind, Except.bind] at located
  | ok _ => rfl

theorem readDirectory :
    tree.readDirectory directory = .ok (entries.map Prod.fst).reverse := by
  simp only [FileTree.readDirectory, leads.located, bind, Except.bind, leads.isDirectory]
  rfl

/-- The path of an entry goes on from the place of the directory. -/
theorem follow_names : follow tree.root false maxLinks (tree.start directory)
      (Path.names directory) = .ok place ∧
    ∃ left, ∀ {creating rest}, GoesOn creating rest →
      follow tree.root creating maxLinks (tree.start directory) (Path.names directory ++ rest) =
        follow tree.root creating left place rest := by
  have located := leads.located
  rw [locate, leads.checked] at located
  change follow _ _ _ _ (Path.steps directory) = _ at located
  rcases follow_append tree.root maxLinks (tree.start directory) (Path.names directory) with
    ⟨error, fails, failsLater⟩ | ⟨final, left, arrives, goesOnLater⟩
  · rw [Path.steps] at located
    split_ifs at located
    · cases (failsLater (goesOn_false [[]])).symm.trans located
    · cases fails.symm.trans located
  · have same : final = place := by
      rw [Path.steps] at located
      split_ifs at located
      · rw [goesOnLater (goesOn_false [[]])] at located
        exact (eq_of_follow_slash located).symm
      · exact Except.ok.inj (arrives.symm.trans located)
    exact same ▸ ⟨arrives, left, fun {_ _} => goesOnLater⟩

theorem within {large : FileTree} (within : tree.Within large) :
    ∃ many, large.LeadsTo directory place many := by
  rcases within.1.isDirectory leads.isDirectory with ⟨many, isMany⟩
  exact ⟨many, within.locate leads.located, isMany⟩

theorem withEntries {many : List (Text × Node)}
    (grown : (Node.directory entries).Within (.directory many)) :
    (tree.withEntries place many).LeadsTo directory place many := by
  have within := within_withEntries leads.isDirectory grown
  rw [withEntries_self leads.isDirectory] at within
  exact ⟨within.locate leads.located, at?_withEntries leads.isDirectory⟩

section entry

variable (isName : Path.IsEntryName name)

include isName

theorem checkPath_entry : checkPath (Path.join directory name) =
    if Text.utf8Length (Path.join directory name) ≤ maxPathBytes then .ok ()
    else .error .nameTooLong :=
  checkPath_join leads.checked isName

theorem exists_follow_entry : ∃ left, ∀ creating,
    follow tree.root creating maxLinks (tree.start (Path.join directory name))
        (Path.steps (Path.join directory name)) =
      follow tree.root creating left place [name] := by
  rcases leads.follow_names.2 with ⟨left, goesOn⟩
  refine ⟨left, fun creating => ?_⟩
  rw [start_join tree isName, Path.steps_join isName]
  exact goesOn (goesOn_singleton isName.nonempty)

/-- An entry that is no link stands where its path leads to. -/
theorem locate_entry {node : Node} (found : Node.findEntry name entries = some node)
    (noLink : ∀ target, node ≠ .link target) :
    tree.locate (Path.join directory name) =
      if Text.utf8Length (Path.join directory name) ≤ maxPathBytes then .ok (place ++ [name])
      else .error .nameTooLong := by
  have walked : walk tree.root false place [name] = .ok (.arrived (place ++ [name])) := by
    have short := Nat.not_lt.2 isName.short
    rw [walk, leads.isDirectory]
    simp only [isName.nonempty, isName.notHere, isName.notAbove, short, found]
    cases node with
    | link target => exact absurd rfl (noLink target)
    | file content => simp [walk]
    | directory others => simp [walk]
  rcases leads.exists_follow_entry isName with ⟨left, goesOn⟩
  rw [locate, leads.checkPath_entry isName, goesOn, follow_of_arrived walked]
  split_ifs <;> rfl

/-- The path of an entry that is no link leads to a directory if the entry is one and the path is
not too long. -/
theorem isDirectory_entry {node : Node} (found : Node.findEntry name entries = some node)
    (noLink : ∀ target, node ≠ .link target) :
    tree.isDirectory (Path.join directory name) =
      (node.isDirectory && Text.utf8Length (Path.join directory name) ≤ maxPathBytes) := by
  rw [FileTree.isDirectory, node?, leads.locate_entry isName found noLink]
  split_ifs with short
  · simp [Node.at?_concat leads.isDirectory, found, short]
  · simp [short]

theorem locateEntry_entry : tree.locateEntry (Path.join directory name) =
    if Text.utf8Length (Path.join directory name) ≤ maxPathBytes then
      .ok (place, entries, name)
    else .error .nameTooLong := by
  have special : ¬(name = "." ∨ name = "..") := by
    rw [not_or]
    exact ⟨isName.notHere, isName.notAbove⟩
  rw [locateEntry, leads.checkPath_entry isName, Path.names_join isName, List.getLast?_concat,
    List.dropLast_concat, start_join tree isName]
  simp only [leads.follow_names.1, if_neg special, if_neg (Nat.not_lt.2 isName.short)]
  split_ifs
  · simp only [bind, Except.bind, leads.isDirectory]
    rfl
  · rfl

end entry

end LeadsTo

/-- Where entries can be read the path leads to a directory. -/
theorem exists_leadsTo_of_readDirectory {names : List Text}
    (read : tree.readDirectory directory = .ok names) :
    ∃ place entries, tree.LeadsTo directory place entries := by
  rw [readDirectory] at read
  cases located : tree.locate directory with
  | error error => simp [located, bind, Except.bind] at read
  | ok place =>
      simp only [located, bind, Except.bind] at read
      split at read
      · exact ⟨place, _, located, ‹_›⟩
      · cases read

section actions

variable {node : Node} {content : Bytes}

/-- An action after another one has succeeded if both have. -/
theorem exists_of_seq_eq_ok {first next : FileAction Unit}
    (acted : (first >>= fun _ => next) tree = .ok () after) :
    ∃ middle, first tree = .ok () middle ∧ next middle = .ok () after := by
  change EStateM.bind first (fun _ => next) tree = _ at acted
  rw [EStateM.bind] at acted
  cases done : first tree with
  | ok _ middle => exact ⟨middle, rfl, by rwa [done] at acted⟩
  | error error middle => simp [done] at acted

theorem get_bind (next : FileTree → FileAction Unit) (tree : FileTree) :
    (get >>= next) tree = next tree tree := rfl

theorem removeEntry_eq (path : Text) (tree : FileTree) : removeEntry path tree =
    match tree.locateEntry path with
    | .error error => .error error tree
    | .ok (parent, entries, name) =>
      if (Node.findEntry name entries).isSome then
        .ok () { tree with root := tree.root.remove (parent ++ [name]) }
      else .error .notFound tree := by
  cases found : tree.locateEntry path with
  | error error =>
      rw [removeEntry, get_bind, found]
      rfl
  | ok entry =>
      rcases entry with ⟨parent, entries, name⟩
      rw [removeEntry, get_bind, found]
      dsimp only
      split_ifs <;> rfl

theorem makeNode_eq (path : Text) (node : Node) (tree : FileTree) : makeNode path node tree =
    match tree.locateEntry path with
    | .error error => .error error tree
    | .ok (parent, entries, name) =>
      if (Node.findEntry name entries).isSome then .error .exists tree
      else .ok () { tree with root := Node.put node (parent ++ [name]) tree.root } := by
  cases found : tree.locateEntry path with
  | error error =>
      rw [makeNode, get_bind, found]
      rfl
  | ok entry =>
      rcases entry with ⟨parent, entries, name⟩
      rw [makeNode, get_bind, found]
      dsimp only
      split_ifs <;> rfl

theorem writeFile_eq (path : Text) (content : Bytes) (tree : FileTree) :
    writeFile path content tree =
      match tree.locateNew path with
      | .error error => .error error tree
      | .ok place =>
        match tree.root.at? place with
        | some (.directory _) => .error .isDirectory tree
        | _ => .ok () { tree with root := Node.put (.file content) place tree.root } := by
  cases found : tree.locateNew path with
  | error error =>
      rw [writeFile, get_bind, found]
      rfl
  | ok place =>
      rw [writeFile, get_bind, found]
      dsimp only
      rcases tree.root.at? place with _ | node
      · rfl
      · cases node <;> rfl

/-- The last name of a path is that of an entry in the directory before it. -/
theorem of_locateEntry {parent : List Text}
    (found : tree.locateEntry path = .ok (parent, entries, name)) :
    tree.root.at? parent = some (.directory entries) ∧ Path.IsEntryName name := by
  rw [locateEntry] at found
  cases checked : checkPath path with
  | error error => simp [checked, bind, Except.bind] at found
  | ok _ =>
      cases last : (Path.names path).getLast? with
      | none =>
          simp [checked, last, bind, Except.bind, throw, throwThe, MonadExceptOf.throw] at found
      | some final =>
          simp only [checked, last, bind, Except.bind] at found
          split at found
          · cases found
          · split at found
            · split_ifs at found with special long
              simp only [pure, Except.pure, Except.ok.injEq, Prod.mk.injEq] at found
              rcases found with ⟨rfl, rfl, rfl⟩
              have member := List.mem_of_getLast? last
              rw [not_or] at special
              refine ⟨‹_›, Path.ne_nil_of_mem_names member, Path.noSlash_of_mem_names member, ?_,
                special.1, special.2, Nat.not_lt.1 long⟩
              intro nul
              exact (checkPath_eq_ok_iff.1 checked).1 (Path.subset_of_mem_names member nul)
            · cases found

/-- What a removal does: the directory has an entry less. -/
theorem exists_withEntries_of_removeEntry (removed : removeEntry path tree = .ok () after) :
    ∃ parent entries name, tree.root.at? parent = some (.directory entries) ∧
      after = tree.withEntries parent (entries.filter fun entry => entry.1 != name) := by
  rw [removeEntry_eq] at removed
  cases found : tree.locateEntry path with
  | error error => simp [found] at removed
  | ok entry =>
      rcases entry with ⟨parent, entries, name⟩
      have isDirectory := (of_locateEntry found).1
      simp only [found, Node.remove_concat isDirectory] at removed
      split_ifs at removed
      exact ⟨parent, entries, name, isDirectory, (EStateM.Result.ok.inj removed).2.symm⟩

/-- What a removal leaves was there before. -/
theorem within_of_removeEntry (removed : removeEntry path tree = .ok () after) :
    after.Within tree := by
  rcases exists_withEntries_of_removeEntry removed with ⟨parent, entries, name, isDirectory, rfl⟩
  have fewer : (Node.directory (entries.filter fun entry => entry.1 != name)).Within
      (.directory entries) := .filter (· != name) entries
  have within := within_withEntries isDirectory fewer
  rwa [withEntries_self isDirectory] at within

namespace LeadsTo

variable (leads : tree.LeadsTo directory place entries) (isName : Path.IsEntryName name)

include leads isName

theorem removeEntry_entry (found : (Node.findEntry name entries).isSome) :
    removeEntry (Path.join directory name) tree =
      if Text.utf8Length (Path.join directory name) ≤ maxPathBytes then
        .ok () (tree.withEntries place (entries.filter fun entry => entry.1 != name))
      else .error .nameTooLong tree := by
  rw [removeEntry_eq, leads.locateEntry_entry isName]
  split_ifs with short
  · simp only [found, if_true, Node.remove_concat leads.isDirectory]
    rfl
  · rfl

/-- A file is written in place of what was there, unless that is a link. -/
theorem writeFile_entry (noLink : ∀ target, Node.findEntry name entries ≠ some (.link target))
    (content : Bytes) : writeFile (Path.join directory name) content tree =
      if Text.utf8Length (Path.join directory name) ≤ maxPathBytes then
        match Node.findEntry name entries with
        | some (.directory _) => .error .isDirectory tree
        | _ => .ok () (tree.withEntries place (Node.setEntry name (.file content) entries))
      else .error .nameTooLong tree := by
  have walked : walk tree.root true place [name] = .ok (.arrived (place ++ [name])) := by
    have short := Nat.not_lt.2 isName.short
    rw [walk, leads.isDirectory]
    simp only [isName.nonempty, isName.notHere, isName.notAbove, short]
    cases found : Node.findEntry name entries with
    | none => simp
    | some node =>
        cases node with
        | link target => exact absurd found (noLink target)
        | file content => simp [walk]
        | directory others => simp [walk]
  rcases leads.exists_follow_entry isName with ⟨left, goesOn⟩
  rw [writeFile_eq, locateNew, leads.checkPath_entry isName, goesOn, follow_of_arrived walked]
  split_ifs
  · simp only [bind, Except.bind, Node.at?_concat leads.isDirectory,
      Node.put_concat leads.isDirectory]
    rfl
  · rfl

theorem of_writeFile_entry (noLink : ∀ target, Node.findEntry name entries ≠ some (.link target))
    (written : writeFile (Path.join directory name) content tree = .ok () after) :
    after = tree.withEntries place (Node.setEntry name (.file content) entries) ∧
      ∀ others, Node.findEntry name entries ≠ some (.directory others) := by
  rw [leads.writeFile_entry isName noLink] at written
  split_ifs at written
  split at written
  · cases written
  · rename_i noDirectory
    exact ⟨(EStateM.Result.ok.inj written).2.symm, noDirectory⟩

end LeadsTo

/-- Where a file can be written the path of its directory leads to one. -/
theorem exists_leadsTo_of_writeFile (checked : checkPath directory = .ok ())
    (isName : Path.IsEntryName name)
    (written : writeFile (Path.join directory name) content tree = .ok () after) :
    ∃ place entries, tree.LeadsTo directory place entries := by
  rw [writeFile_eq] at written
  cases located : tree.locateNew (Path.join directory name) with
  | error error => simp [located] at written
  | ok final =>
      rw [locateNew, start_join tree isName, Path.steps_join isName] at located
      cases checkedEntry : checkPath (Path.join directory name) with
      | error error => simp [checkedEntry, bind, Except.bind] at located
      | ok _ =>
          simp only [checkedEntry, bind, Except.bind] at located
          have goesOn : GoesOn true [name] := goesOn_singleton isName.nonempty
          rcases follow_append tree.root maxLinks (tree.start directory) (Path.names directory) with
            ⟨error, _, fails⟩ | ⟨place, left, arrives, later⟩
          · cases (fails goesOn).symm.trans located
          · rw [later goesOn] at located
            rcases exists_directory_of_follow_cons located with ⟨entries, isDirectory⟩
            refine ⟨place, entries, ?_, isDirectory⟩
            rw [locate, checked, Path.steps]
            split_ifs
            · exact (later (goesOn_false [[]])).trans (follow_slash isDirectory)
            · exact arrives

/-- A directory that is made is a new entry of another one. -/
theorem exists_withEntries_of_makeNode (made : makeNode path node tree = .ok () after) :
    ∃ parent entries name, tree.root.at? parent = some (.directory entries) ∧
      Path.IsEntryName name ∧ Node.findEntry name entries = none ∧
        after = tree.withEntries parent (Node.setEntry name node entries) := by
  rw [makeNode_eq] at made
  cases found : tree.locateEntry path with
  | error error => simp [found] at made
  | ok entry =>
      rcases entry with ⟨parent, entries, name⟩
      rcases of_locateEntry found with ⟨isDirectory, isName⟩
      simp only [found, Node.put_concat isDirectory] at made
      split_ifs at made with taken
      exact ⟨parent, entries, name, isDirectory, isName, Option.not_isSome_iff_eq_none.1 taken,
        (EStateM.Result.ok.inj made).2.symm⟩

theorem eq_of_makeNode_error {error : OsError}
    (failed : makeNode path node tree = .error error after) : after = tree := by
  rw [makeNode_eq] at failed
  cases found : tree.locateEntry path with
  | error other => simp_all
  | ok entry =>
      simp only [found] at failed
      split_ifs at failed
      exact (EStateM.Result.error.inj failed).2.symm

end actions

section keeps

/-- The files that an action leaves behind, whether it fails or not. -/
def left : EStateM.Result OsError FileTree Unit → FileTree
  | .ok _ after => after
  | .error _ after => after

/-- Whether an action has not failed. -/
def succeeds : EStateM.Result OsError FileTree Unit → Bool
  | .ok _ _ => true
  | .error _ _ => false

theorem eq_ok_of_succeeds {result : EStateM.Result OsError FileTree Unit}
    (success : succeeds result = true) : result = .ok () (left result) := by
  cases result with
  | ok _ after => rfl
  | error error after => cases success

/-- An action that keeps what holds of the files. -/
def Keeps (holds : FileTree → Prop) (action : FileAction Unit) : Prop :=
  ∀ tree, holds tree → holds (left (action tree))

variable {holds : FileTree → Prop} {action next : FileAction Unit}

theorem keeps_pure : Keeps holds (pure ()) := fun _ before => before

theorem Keeps.seq (keeps : Keeps holds action) (nextKeeps : Keeps holds next) :
    Keeps holds (action >>= fun _ => next) := by
  intro tree before
  have first := keeps tree before
  change holds (left (EStateM.bind action (fun _ => next) tree))
  rw [EStateM.bind]
  cases acted : action tree with
  | ok _ after => exact nextKeeps after (by rwa [acted] at first)
  | error error after => rwa [acted] at first

theorem Keeps.tryCatch {handler : OsError → FileAction Unit} (keeps : Keeps holds action)
    (handlerKeeps : ∀ error, Keeps holds (handler error)) :
    Keeps holds (MonadExcept.tryCatch action handler) := by
  intro tree before
  have first := keeps tree before
  change holds (left (EStateM.tryCatch action handler tree))
  rw [EStateM.tryCatch]
  cases acted : action tree with
  | ok _ after => rwa [acted] at first
  | error error after => exact handlerKeeps error after (by rwa [acted] at first)

/-- What fails where a path does not lead to a directory changes nothing. -/
theorem keeps_unless (path : Text) (error : OsError) :
    Keeps holds (do if (← get).isDirectory path then pure () else throw error) := by
  intro tree before
  change holds (left
    ((if tree.isDirectory path then pure () else throw error : FileAction Unit) tree))
  split_ifs <;> exact before

variable (makes : ∀ path, Keeps holds (makeDirectory path))

include makes

theorem keeps_makeChain (paths : List Text) : Keeps holds (makeChain paths) := by
  induction paths with
  | nil => exact keeps_pure
  | cons path above ih =>
      apply (makes path).tryCatch
      intro error
      split_ifs
      · exact ih.seq ((makes path).tryCatch fun later => keeps_unless path later)
      · exact keeps_unless path error

/-- What every directory that is made keeps holds after all of them are made. -/
theorem keeps_makeDirectories (path : Text) : Keeps holds (makeDirectories path) :=
  keeps_makeChain makes _

end keeps

section makeDirectories

theorem LeadsTo.isDirectory_self (leads : tree.LeadsTo directory place entries) :
    tree.isDirectory directory = true := by
  rw [FileTree.isDirectory, node?, leads.located]
  simp only [leads.isDirectory]
  rfl

/-- A directory that is there is not made. -/
theorem LeadsTo.makeDirectory (leads : tree.LeadsTo directory place entries) :
    makeDirectory directory tree = .error .exists tree := by
  have isError : tree.locateEntry directory = .error .exists ∨ ∃ parent others name,
      tree.locateEntry directory = .ok (parent, others, name) ∧
        (Node.findEntry name others).isSome := by
    rw [locateEntry, leads.checked]
    cases last : (Path.names directory).getLast? with
    | none => exact .inl rfl
    | some name =>
        have arrives := leads.follow_names.1
        rw [← List.dropLast_append_getLast? name last] at arrives
        rcases follow_append tree.root maxLinks (tree.start directory)
          (Path.names directory).dropLast with ⟨error, _, fails⟩ | ⟨final, left, isFinal, goesOn⟩
        · cases (fails (goesOn_false [name])).symm.trans arrives
        · rw [goesOn (goesOn_false [name])] at arrives
          rcases exists_directory_of_follow_cons arrives with ⟨others, isOthers⟩
          simp only [isFinal, bind, Except.bind, isOthers]
          split_ifs with special long
          · exact .inl rfl
          · have nonempty := Path.ne_nil_of_mem_names (List.mem_of_getLast? last)
            have short := (of_follow_singleton isOthers arrives nonempty special).1
            omega
          · have nonempty := Path.ne_nil_of_mem_names (List.mem_of_getLast? last)
            exact .inr ⟨final, others, name, rfl,
              (of_follow_singleton isOthers arrives nonempty special).2⟩
  rw [FileTree.makeDirectory, makeNode_eq]
  rcases isError with failed | ⟨parent, others, name, found, taken⟩
  · rw [failed]
  · rw [found]
    exact if_pos taken

/-- Making a directory that is there changes nothing. -/
theorem LeadsTo.makeDirectories (leads : tree.LeadsTo directory place entries) :
    makeDirectories directory tree = .ok () tree := by
  change EStateM.tryCatch (FileTree.makeDirectory directory) _ tree = _
  rw [EStateM.tryCatch, leads.makeDirectory]
  change (if tree.isDirectory directory then pure () else throw .exists : FileAction Unit) tree = _
  rw [leads.isDirectory_self]
  rfl

/-- Whether a tree is well-formed and has no links but those of another one. -/
def GrownFrom (tree grown : FileTree) : Prop :=
  grown.root.WellFormed ∧ ∀ place target, grown.root.at? place = some (.link target) →
    tree.root.at? place = some (.link target)

/-- An empty directory holds no links. -/
theorem isLink_of_isLink_setEntry {parent : List Text} {target : Text}
    (isDirectory : tree.root.at? parent = some (.directory entries))
    (isLink : (tree.withEntries parent
      (Node.setEntry name (.directory []) entries)).root.at? place = some (.link target)) :
    tree.root.at? place = some (.link target) := by
  by_cases below : parent <+: place
  · rcases below with ⟨rest, rfl⟩
    rw [withEntries, Node.at?_put_append isDirectory] at isLink
    rw [Node.at?_append, isDirectory, Option.bind_some]
    cases rest with
    | nil => cases isLink
    | cons first rest =>
        rw [Node.at?_cons, Node.findEntry_setEntry] at isLink
        split_ifs at isLink
        · cases rest <;> cases isLink
        · rw [Node.at?_cons]
          exact isLink
  · have same := Node.faceAt?_put isDirectory
      (.directory (Node.setEntry name (.directory []) entries)) below
    rw [withEntries] at isLink
    rw [Node.faceAt?, isLink, Option.map_some, eq_comm, Node.faceAt?,
      Option.map_eq_some_iff] at same
    rcases same with ⟨node, found, isFace⟩
    cases node with
    | link other => rw [found, Node.Face.link.inj isFace]
    | file content => cases isFace
    | directory others => cases isFace

theorem keeps_makeDirectory (path : Text) : Keeps (GrownFrom tree) (makeDirectory path) := by
  rintro made ⟨wellFormed, links⟩
  cases acted : makeDirectory path made with
  | error error after => exact eq_of_makeNode_error acted ▸ ⟨wellFormed, links⟩
  | ok _ after =>
      rcases exists_withEntries_of_makeNode acted with
        ⟨parent, entries, name, isDirectory, isName, _, rfl⟩
      refine ⟨wellFormed.put isDirectory ?_, fun place target isLink => links place target ?_⟩
      · exact (wellFormed.at? isDirectory).setEntry isName .empty
      · exact isLink_of_isLink_setEntry isDirectory isLink

/-- Making directories makes no links. -/
theorem grownFrom_of_makeDirectories (wellFormed : tree.root.WellFormed)
    (made : makeDirectories path tree = .ok () after) : GrownFrom tree after := by
  have keeps := keeps_makeDirectories keeps_makeDirectory path tree
    (⟨wellFormed, fun _ _ isLink => isLink⟩ : GrownFrom tree tree)
  rwa [made] at keeps

end makeDirectories

end CompiledViews.FileTree
