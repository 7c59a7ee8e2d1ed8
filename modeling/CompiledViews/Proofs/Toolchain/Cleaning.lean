import CompiledViews.Proofs.FileTree.Entries
import CompiledViews.Toolchain.Scratch

/-!
# Cleaning

Whatever the order in which its entries are taken, cleaning a directory leaves it with some of them
as they were and touches nothing else. Each entry is judged by what its path leads to when its turn
comes; where that does not depend on the other entries, it is what the path leads to at first.
-/

namespace CompiledViews

namespace FileTree

/-- The tree in which the directory at a place has only the entries with some of the names. -/
def restrict (tree : FileTree) (place : List Text) (entries : List (Text × Node))
    (kept : Text → Bool) : FileTree :=
  tree.withEntries place (entries.filter fun entry => kept entry.1)

section restrict

variable {tree : FileTree} {place : List Text} {entries : List (Text × Node)}
  {kept more : Text → Bool}

theorem restrict_all (isDirectory : tree.root.at? place = some (.directory entries)) :
    tree.restrict place entries (fun _ => true) = tree := by
  rw [restrict, List.filter_true, withEntries_self isDirectory]

/-- Of fewer names come fewer entries. -/
theorem restrict_restrict (isDirectory : tree.root.at? place = some (.directory entries)) :
    (tree.restrict place entries kept).restrict place
      (entries.filter fun entry => kept entry.1) more =
    tree.restrict place entries fun name => kept name && more name := by
  simp only [restrict, withEntries_withEntries isDirectory, List.filter_filter, Bool.and_comm]

end restrict

/-- Whether a path leads to a place from outside: whatever the directory there holds. -/
def ReachesFromOutside (tree : FileTree) (directory : Text) (place : List Text) : Prop :=
  ∀ others, (tree.withEntries place others).locate directory = .ok place

/-- Whether the links in a directory lead outside: what else the directory holds makes no difference
to whether a link leads to a directory. -/
def LinksLeadOutside (tree : FileTree) (directory : Text) (place : List Text) : Prop :=
  ∀ name target others, tree.root.at? (place ++ [name]) = some (.link target) →
    Node.findEntry name others = some (.link target) →
    (tree.withEntries place others).isDirectory (Path.join directory name) =
      tree.isDirectory (Path.join directory name)

end FileTree

namespace Toolchain

open FileTree

variable {tree after : FileTree} {directory name path : Text} {place : List Text}
  {entries : List (Text × Node)} {names : List Text}

/-- Whether an entry stays, as the files are when its turn comes. -/
def spares (tree : FileTree) (directory name : Text) : Bool :=
  !tree.isDirectory (Path.join directory name) && !isArtifactName name

theorem removeArtifact_eq (path : Text) (tree : FileTree) : removeArtifact path tree =
    if tree.isDirectory path || isArtifactName (Text.afterLast '/' path) then
      removeEntry path tree
    else .ok () tree := by
  change (if tree.isDirectory path || isArtifactName (Text.afterLast '/' path) then
    removeEntry path else pure () : FileAction Unit) tree = _
  split_ifs <;> rfl

theorem removeArtifact_of_spared (isName : Path.IsEntryName name)
    (spared : spares tree directory name = true) :
    removeArtifact (Path.join directory name) tree = .ok () tree := by
  rw [spares, Bool.and_eq_true, Bool.not_eq_true', Bool.not_eq_true'] at spared
  rw [removeArtifact_eq, Path.afterLast_join isName, spared.1, spared.2]
  rfl

theorem removeArtifact_of_doomed (leads : tree.LeadsTo directory place entries)
    (isName : Path.IsEntryName name) (found : (Node.findEntry name entries).isSome)
    (short : Text.utf8Length (Path.join directory name) ≤ maxPathBytes)
    (doomed : spares tree directory name = false) :
    removeArtifact (Path.join directory name) tree =
      .ok () (tree.withEntries place (entries.filter fun entry => entry.1 != name)) := by
  rw [spares, ← Bool.not_or, Bool.not_eq_false'] at doomed
  rw [removeArtifact_eq, Path.afterLast_join isName, if_pos doomed,
    leads.removeEntry_entry isName found, if_pos short]

/-- The first entry has its turn, and then the others. -/
theorem forM_cons_of_eq {middle : FileTree}
    (first : removeArtifact (Path.join directory name) tree = .ok () middle) :
    (name :: names).forM (fun name => removeArtifact (Path.join directory name)) tree =
      names.forM (fun name => removeArtifact (Path.join directory name)) middle := by
  change EStateM.bind (removeArtifact (Path.join directory name)) _ tree = _
  rw [EStateM.bind, first]

/-- Nothing changes where every entry is spared. -/
theorem forM_eq_of_spared (areNames : ∀ name ∈ names, Path.IsEntryName name)
    (spared : ∀ name ∈ names, spares tree directory name = true) :
    names.forM (fun name => removeArtifact (Path.join directory name)) tree = .ok () tree := by
  induction names with
  | nil => rfl
  | cons name names ih =>
      rw [List.forall_mem_cons] at areNames spared
      rw [forM_cons_of_eq (removeArtifact_of_spared areNames.1 spared.1)]
      exact ih areNames.2 spared.2

theorem within_of_removeArtifact (removed : removeArtifact path tree = .ok () after) :
    after.Within tree := by
  rw [removeArtifact_eq] at removed
  split_ifs at removed
  · exact within_of_removeEntry removed
  · rcases (EStateM.Result.ok.inj removed).2 with rfl
    exact .refl tree

theorem within_of_forM
    (removed : names.forM (fun name => removeArtifact (Path.join directory name)) tree =
      .ok () after) : after.Within tree := by
  induction names generalizing tree with
  | nil =>
      rcases (EStateM.Result.ok.inj removed).2 with rfl
      exact .refl tree
  | cons name names ih =>
      rcases exists_of_seq_eq_ok removed with ⟨middle, first, rest⟩
      exact (ih rest).trans (within_of_removeArtifact first)

/-- What becomes of a directory at the turn of one of its entries. -/
theorem eq_restrict_of_removeArtifact (leads : tree.LeadsTo directory place entries)
    (isName : Path.IsEntryName name) (found : (Node.findEntry name entries).isSome)
    (removed : removeArtifact (Path.join directory name) tree = .ok () after) :
    after = tree.restrict place entries fun other =>
      spares tree directory name || other != name := by
  cases isSpared : spares tree directory name with
  | true =>
      rw [removeArtifact_of_spared isName isSpared] at removed
      simp only [Bool.true_or, restrict_all leads.isDirectory]
      exact (EStateM.Result.ok.inj removed).2.symm
  | false =>
      rw [spares, ← Bool.not_or, Bool.not_eq_false'] at isSpared
      rw [removeArtifact_eq, Path.afterLast_join isName, if_pos isSpared,
        leads.removeEntry_entry isName found] at removed
      split_ifs at removed
      simp only [Bool.false_or]
      exact (EStateM.Result.ok.inj removed).2.symm

/-- What becomes of a directory at the turns of some of its entries: each one is judged as the files
are by then. The path of the directory leads there all the time. -/
theorem exists_kept {start : Text → Bool}
    (isDirectory : tree.root.at? place = some (.directory entries))
    (areEntries : ∀ name ∈ names, Path.IsEntryName name ∧ (Node.findEntry name entries).isSome)
    (distinct : names.Nodup) (present : ∀ name ∈ names, start name = true)
    (leads : ∀ kept, after.Within (tree.restrict place entries kept) →
      (tree.restrict place entries kept).locate directory = .ok place)
    (removed : names.forM (fun name => removeArtifact (Path.join directory name))
      (tree.restrict place entries start) = .ok () after) :
    ∃ kept : Text → Bool, after = tree.restrict place entries kept ∧
      (∀ name ∉ names, kept name = start name) ∧
      ∀ name ∈ names, ∃ earlier : Text → Bool, earlier name = true ∧
        after.Within (tree.restrict place entries earlier) ∧
        kept name = spares (tree.restrict place entries earlier) directory name := by
  induction names generalizing start with
  | nil =>
      refine ⟨start, (EStateM.Result.ok.inj removed).2.symm, fun _ _ => rfl, ?_⟩
      simp
  | cons name names ih =>
      rw [List.forall_mem_cons] at areEntries present
      rw [List.nodup_cons] at distinct
      have within := within_of_forM removed
      have here : (tree.restrict place entries start).LeadsTo directory place
          (entries.filter fun entry => start entry.1) :=
        ⟨leads start within, at?_withEntries isDirectory⟩
      have found : (Node.findEntry name (entries.filter fun entry => start entry.1)).isSome := by
        rw [Node.findEntry_filter, present.1]
        exact areEntries.1.2
      rcases exists_of_seq_eq_ok removed with ⟨middle, first, rest⟩
      have isMiddle := eq_restrict_of_removeArtifact here areEntries.1.1 found first
      rw [restrict_restrict isDirectory] at isMiddle
      subst isMiddle
      have others : ∀ other ∈ names, (start other && (spares (tree.restrict place entries start)
          directory name || other != name)) = true := by
        intro other member
        have different : other ≠ name := fun same => distinct.1 (same ▸ member)
        simp [present.2 other member, different]
      rcases ih areEntries.2 distinct.2 others rest with ⟨kept, isAfter, unchanged, judged⟩
      refine ⟨kept, isAfter, ?_, ?_⟩
      · intro other absent
        rw [List.mem_cons, not_or] at absent
        simp [unchanged other absent.2, absent.1]
      · rw [List.forall_mem_cons]
        refine ⟨⟨start, present.1, within, ?_⟩, judged⟩
        simp [unchanged name distinct.1, present.1]

section clean

variable {arrange : List Text → List Text}

theorem cleanScratchIn_eq (arrange : List Text → List Text) (directory : Text) (tree : FileTree) :
    cleanScratchIn arrange directory tree =
      match tree.readDirectory directory with
      | .ok names =>
        (arrange names).forM (fun name => removeArtifact (Path.join directory name)) tree
      | .error error => .error error tree := by
  cases found : tree.readDirectory directory with
  | ok names =>
      rw [cleanScratchIn, get_bind, found]
  | error error =>
      rw [cleanScratchIn, get_bind, found]
      rfl

/-- The entries of a directory are taken as their names are arranged. -/
theorem cleanScratchIn_of_arranged (leads : tree.LeadsTo directory place entries)
    (arranged : arrange (entries.map Prod.fst).reverse = names) :
    cleanScratchIn arrange directory tree =
      names.forM (fun name => removeArtifact (Path.join directory name)) tree := by
  rw [cleanScratchIn_eq, leads.readDirectory, ← arranged]

/-- Where a directory can be cleaned its path leads to one. -/
theorem exists_leadsTo_of_cleanScratchIn
    (cleaned : cleanScratchIn arrange directory tree = .ok () after) :
    ∃ place entries, tree.LeadsTo directory place entries := by
  rw [cleanScratchIn_eq] at cleaned
  split at cleaned
  · exact exists_leadsTo_of_readDirectory ‹_›
  · cases cleaned

/-- Cleaning leaves a directory with some of its entries, each one judged at its turn. -/
theorem exists_restrict_of_cleanScratchIn (permutes : ∀ names, (arrange names).Perm names)
    (wellFormed : tree.root.WellFormed) (leads : tree.LeadsTo directory place entries)
    (leadsLater : ∀ kept, after.Within (tree.restrict place entries kept) →
      (tree.restrict place entries kept).locate directory = .ok place)
    (cleaned : cleanScratchIn arrange directory tree = .ok () after) :
    ∃ kept : Text → Bool, after = tree.restrict place entries kept ∧
      ∀ name, (Node.findEntry name entries).isSome → ∃ earlier : Text → Bool,
        earlier name = true ∧ after.Within (tree.restrict place entries earlier) ∧
        kept name = spares (tree.restrict place entries earlier) directory name := by
  rcases wellFormed place entries leads.isDirectory with ⟨distinct, areNames⟩
  have isPermutation := (permutes (entries.map Prod.fst).reverse).trans (List.reverse_perm _)
  rw [cleanScratchIn_of_arranged leads rfl, ← restrict_all leads.isDirectory] at cleaned
  have areEntries : ∀ name ∈ arrange (entries.map Prod.fst).reverse,
      Path.IsEntryName name ∧ (Node.findEntry name entries).isSome := by
    intro name member
    rw [isPermutation.mem_iff] at member
    exact ⟨areNames name member, Node.findEntry_isSome_iff.2 member⟩
  rcases exists_kept leads.isDirectory areEntries (isPermutation.nodup_iff.2 distinct)
    (fun _ _ => rfl) leadsLater cleaned with ⟨kept, isAfter, _, judged⟩
  refine ⟨kept, isAfter, fun name found => judged name ?_⟩
  rw [isPermutation.mem_iff]
  exact Node.findEntry_isSome_iff.1 found

/-- Whether an entry survives: a file does, a directory whose path is too long, and a link that does
not lead to a directory, unless the name is that of an artifact. -/
def survives (tree : FileTree) (directory : Text) : Text × Node → Bool
  | (name, .file _) => !isArtifactName name
  | (name, .directory _) =>
    !isArtifactName name && !(Text.utf8Length (Path.join directory name) ≤ maxPathBytes : Bool)
  | (name, .link _) => !isArtifactName name && !tree.isDirectory (Path.join directory name)

/-- Which entry is spared at its turn does not depend on those before it. -/
theorem spares_restrict {kept : Text → Bool} {node : Node}
    (isDirectory : tree.root.at? place = some (.directory entries))
    (outside : tree.ReachesFromOutside directory place)
    (linksOutside : tree.LinksLeadOutside directory place) (isName : Path.IsEntryName name)
    (found : Node.findEntry name entries = some node) (isKept : kept name = true) :
    spares (tree.restrict place entries kept) directory name =
      survives tree directory (name, node) := by
  have leads : (tree.restrict place entries kept).LeadsTo directory place
      (entries.filter fun entry => kept entry.1) :=
    ⟨outside _, at?_withEntries isDirectory⟩
  have foundLater : Node.findEntry name (entries.filter fun entry => kept entry.1) = some node := by
    rw [Node.findEntry_filter, if_pos isKept, found]
  cases node with
  | file content =>
      rw [spares, leads.isDirectory_entry isName foundLater (by simp)]
      simp [survives, Node.isDirectory]
  | directory others =>
      rw [spares, leads.isDirectory_entry isName foundLater (by simp)]
      simp [survives, Node.isDirectory, Bool.and_comm]
  | link target =>
      have isLink : tree.root.at? (place ++ [name]) = some (.link target) := by
        rw [Node.at?_concat isDirectory, found]
      rw [spares, restrict, linksOutside name target _ isLink foundLater, survives, Bool.and_comm]

/-- Cleaning a directory removes its artifacts, its directories and the links to directories, and
leaves the other entries and everything outside as they are. Only a directory whose path is too long
is left as well. -/
theorem cleanScratchIn_eq_withEntries (permutes : ∀ names, (arrange names).Perm names)
    (wellFormed : tree.root.WellFormed) (leads : tree.LeadsTo directory place entries)
    (outside : tree.ReachesFromOutside directory place)
    (linksOutside : tree.LinksLeadOutside directory place)
    (cleaned : cleanScratchIn arrange directory tree = .ok () after) :
    after = tree.withEntries place (entries.filter (survives tree directory)) ∧
      (∀ name node, tree.root.at? (place ++ [name]) = some node →
        after.root.at? (place ++ [name]) =
          if survives tree directory (name, node) then some node else none) ∧
      ∀ elsewhere, ¬place <+: elsewhere →
        after.root.faceAt? elsewhere = tree.root.faceAt? elsewhere := by
  rcases wellFormed place entries leads.isDirectory with ⟨distinct, areNames⟩
  rcases exists_restrict_of_cleanScratchIn permutes wellFormed leads (fun kept _ => outside _)
    cleaned with ⟨kept, rfl, judged⟩
  have keptIff {name : Text} {node : Node} (found : Node.findEntry name entries = some node) :
      kept name = survives tree directory (name, node) := by
    have isSome : (Node.findEntry name entries).isSome := by simp [found]
    have isName := areNames name (Node.findEntry_isSome_iff.1 isSome)
    rcases judged name isSome with ⟨earlier, isKept, _, isJudged⟩
    rw [isJudged, spares_restrict leads.isDirectory outside linksOutside isName found isKept]
  refine ⟨?_, ?_, ?_⟩
  · rw [restrict]
    congr 1
    apply List.filter_congr
    intro entry member
    exact keptIff (Node.findEntry_of_mem distinct member)
  · intro name node found
    rw [Node.at?_concat leads.isDirectory] at found
    rw [restrict, at?_withEntries_concat leads.isDirectory, Node.findEntry_filter, found,
      keptIff found]
  · intro elsewhere isOutside
    exact Node.faceAt?_put leads.isDirectory _ isOutside

/-- A directory with a file, a class file, and a link to another directory. -/
def furnished : FileTree :=
  ⟨.directory [("out", .directory [("B.class", .file [])]), ("s", .directory
    [("Keep.kt", .file []), ("A.class", .file []), ("l", .link "../out")])], []⟩

theorem isDirectory_furnished : furnished.root.at? ["s"] = some (.directory
    [("Keep.kt", .file []), ("A.class", .file []), ("l", .link "../out")]) := rfl

theorem linksLeadOutside_furnished : furnished.LinksLeadOutside "s" ["s"] := by
  intro name target others found foundLater
  rw [Node.at?_concat isDirectory_furnished] at found
  have isLink : name = "l" ∧ target = "../out" := by
    have member := Node.mem_of_findEntry found
    simpa using member
  rcases isLink with ⟨rfl, rfl⟩
  have isRoot : (furnished.withEntries ["s"] others).root =
      .directory [("out", .directory [("B.class", .file [])]), ("s", .directory others)] := rfl
  have detours : walk (furnished.withEntries ["s"] others).root false [] [("s" : Text), "l"] =
      .ok (.detour ["s"] "../out" []) := by
    rw [isRoot]
    simp only [String.reduceToList] at foundLater ⊢
    simp [walk, Node.at?, Node.findEntry, maxNameBytes, Text.utf8Length, Char.utf8Size,
      foundLater]
  have arrives : walk (furnished.withEntries ["s"] others).root false ["s"] [("..": Text), "out"] =
      .ok (.arrived ["out"]) := by
    rw [isRoot]
    rfl
  have located : (furnished.withEntries ["s"] others).locate (Path.join "s" "l") = .ok ["out"] := by
    have checked : checkPath (Path.join "s" "l") = .ok () := by decide
    have isSteps : Path.steps (Path.join "s" "l") = [("s" : Text), "l"] := by decide
    have isStart : (furnished.withEntries ["s"] others).start (Path.join "s" "l") = [] := rfl
    rw [locate, checked, isSteps, isStart]
    change follow (furnished.withEntries ["s"] others).root false (39 + 1) [] _ = _
    rw [follow, detours]
    exact follow_of_arrived arrives
  rw [isDirectory, node?, located]
  rfl

theorem wellFormed_furnished : furnished.root.WellFormed := by
  refine .directory (by decide) (by decide) ?_
  simp only [List.forall_mem_cons, List.not_mem_nil, IsEmpty.forall_iff, implies_true, and_true]
  constructor
  · exact .directory (by decide) (by decide) (by simpa using .file [])
  · refine .directory (by decide) (by decide) ?_
    simpa using ⟨.file [], .link _⟩

theorem leadsTo_furnished : furnished.LeadsTo "s" ["s"]
    [("Keep.kt", .file []), ("A.class", .file []), ("l", .link "../out")] :=
  ⟨by decide, isDirectory_furnished⟩

/-- Of the entries only the source stays, and what the link leads to is as before. -/
theorem cleanScratchIn_eq_withEntries_furnished :
    left (cleanScratchIn List.reverse "s" furnished) =
        furnished.withEntries ["s"] [("Keep.kt", .file [])] ∧
      ∀ elsewhere, ¬[("s" : Text)] <+: elsewhere →
        (left (cleanScratchIn List.reverse "s" furnished)).root.faceAt? elsewhere =
          furnished.root.faceAt? elsewhere := by
  have outside : furnished.ReachesFromOutside "s" ["s"] := fun others => rfl
  have success : succeeds (cleanScratchIn List.reverse "s" furnished) = true := by decide
  rcases cleanScratchIn_eq_withEntries List.reverse_perm wellFormed_furnished leadsTo_furnished
    outside linksLeadOutside_furnished (eq_ok_of_succeeds success) with ⟨isAfter, _, same⟩
  refine ⟨isAfter.trans ?_, same⟩
  have keeps : survives furnished "s" ("Keep.kt", .file []) = true := by decide
  have drops : survives furnished "s" ("A.class", .file []) = false := by decide
  have dropsLink : survives furnished "s" ("l", .link "../out") = false := by decide
  rw [List.filter_cons_of_pos keeps, List.filter_cons_of_neg (Bool.eq_false_iff.1 drops),
    List.filter_cons_of_neg (Bool.eq_false_iff.1 dropsLink), List.filter_nil]

end clean

section exceptions

/-- A run of the cleaner, in some order, over a directory none of whose links leads to a place in
it. -/
structure Cleaned (arrange : List Text → List Text) (tree after : FileTree) (directory : Text)
    (place : List Text) : Prop where
  permutes : ∀ names, (arrange names).Perm names
  wellFormed : tree.root.WellFormed
  leads : ∃ entries, tree.LeadsTo directory place entries
  linksOutside : ∀ name target final, tree.root.at? (place ++ [name]) = some (.link target) →
    tree.locate (Path.join directory name) = .ok final → ¬place <+: final
  cleaned : cleanScratchIn arrange directory tree = .ok () after

/-- Whether the directories at a place and the links to some are gone. -/
def Clears (tree after : FileTree) (directory : Text) (place : List Text) : Prop :=
  ∀ name node, tree.root.at? (place ++ [name]) = some node →
    node.isDirectory ∨ tree.isDirectory (Path.join directory name) →
    after.root.at? (place ++ [name]) = none

/-- Whether no path of an entry is too long. -/
def AllShort (tree : FileTree) (directory : Text) (place : List Text) : Prop :=
  ∀ name, (tree.root.at? (place ++ [name])).isSome →
    Text.utf8Length (Path.join directory name) ≤ maxPathBytes

/-- A directory, by the name of `s`, with some entries. -/
def housing (entries : List (Text × Node)) : FileTree :=
  ⟨.directory [("s", .directory entries)], []⟩

/-- The place of that directory. -/
def housed : List Text := ["s"]

theorem at?_housing (entries : List (Text × Node)) (name : Text) :
    (housing entries).root.at? (housed ++ [name]) = Node.findEntry name entries :=
  Node.at?_concat rfl name

theorem wellFormed_housing (wellFormed : (Node.directory entries).WellFormed) :
    (housing entries).root.WellFormed := by
  have isName : Path.IsEntryName "s" := by decide
  exact .directory (by simp) (by simpa using isName) (by simpa using wellFormed)

/-- The path of that directory with slashes behind it. -/
def slashed (count : Nat) : Text := "s" ++ List.replicate count '/'

theorem utf8Length_slashed (count : Nat) : Text.utf8Length (slashed count) = 1 + count := by
  rw [slashed, Text.utf8Length_append, Text.utf8Length_replicate]
  simp [Text.utf8Length, Char.utf8Size]

theorem endsWith_slashed (count : Nat) : Text.endsWith (slashed (count + 1)) "/" = true := by
  rw [Text.endsWith, List.isSuffixOf_iff_suffix]
  refine ⟨slashed count, ?_⟩
  rw [slashed, slashed, List.append_assoc]
  exact congrArg _ List.replicate_succ'.symm

theorem leadsTo_slashed {count : Nat} (short : 1 + (count + 1) ≤ maxPathBytes)
    (entries : List (Text × Node)) :
    (housing entries).LeadsTo (slashed (count + 1)) housed entries := by
  have checked : checkPath (slashed (count + 1)) = .ok () := by
    rw [checkPath_eq_ok_iff, utf8Length_slashed]
    exact ⟨by simp [slashed], by simp [slashed], short⟩
  have isSteps : Path.steps (slashed (count + 1)) = [("s" : Text), []] := by
    rw [Path.steps, if_pos (endsWith_slashed count), slashed, Path.names_append_slashes]
    rfl
  refine ⟨?_, rfl⟩
  rw [locate, checked, isSteps]
  rfl

theorem utf8Length_join_slashed (isName : Path.IsEntryName name) (count : Nat) :
    Text.utf8Length (Path.join (slashed (count + 1)) name) =
      1 + (count + 1) + Text.utf8Length name := by
  rw [Path.join, Path.isAbsolute_eq_false isName, if_neg Bool.false_ne_true,
    if_pos (.inr (endsWith_slashed count)), Text.utf8Length_append, utf8Length_slashed]

/-- A name that makes a path too long behind many slashes. -/
def longName : Text := List.replicate 200 'n'

theorem isEntryName_longName : Path.IsEntryName longName := by decide +kernel

theorem not_short_longName :
    ¬Text.utf8Length (Path.join (slashed 3950) longName) ≤ maxPathBytes := by
  rw [utf8Length_join_slashed isEntryName_longName, longName, Text.utf8Length_replicate]
  decide

/-- A directory that holds one whose path is too long behind many slashes. -/
def deep : FileTree := housing [(longName, .directory [])]

theorem leadsTo_deep : deep.LeadsTo (slashed 3950) housed [(longName, .directory [])] :=
  leadsTo_slashed (by decide) _

theorem reachesFromOutside_deep : deep.ReachesFromOutside (slashed 3950) housed :=
  fun others => (leadsTo_slashed (by decide) others).located

theorem noLink_deep (name target : Text) :
    deep.root.at? (housed ++ [name]) ≠ some (.link target) := by
  rw [deep, at?_housing, Node.findEntry]
  split_ifs <;> simp [Node.findEntry]

/-- In every order it stays. -/
theorem cleaned_deep {arrange : List Text → List Text}
    (permutes : ∀ names, (arrange names).Perm names) :
    Cleaned arrange deep deep (slashed 3950) housed where
  permutes := permutes
  wellFormed := by
    apply wellFormed_housing
    refine .directory (by simp) (by simpa using isEntryName_longName) ?_
    simpa using .empty
  leads := ⟨_, leadsTo_deep⟩
  linksOutside := fun name target _ found => absurd found (noLink_deep name target)
  cleaned := by
    have found : Node.findEntry longName [(longName, .directory [])] = some (.directory []) :=
      if_pos rfl
    have notArtifact : isArtifactName longName = false := by decide +kernel
    have arranged : arrange [longName] = [longName] := List.perm_singleton.1 (permutes _)
    rw [cleanScratchIn_of_arranged leadsTo_deep arranged]
    apply forM_eq_of_spared
    · simpa using isEntryName_longName
    · rw [List.forall_mem_singleton, spares,
        leadsTo_deep.isDirectory_entry isEntryName_longName found (by simp), notArtifact,
        decide_eq_false not_short_longName]
      rfl

/-- A directory with two in it. -/
def nested : FileTree := housing [("a", .directory []), ("sub", .directory [])]

theorem noLink_nested (name target : Text) :
    nested.root.at? (housed ++ [name]) ≠ some (.link target) := by
  rw [nested, at?_housing, Node.findEntry, Node.findEntry, Node.findEntry]
  split_ifs <;> simp

theorem leadsTo_nested :
    nested.LeadsTo "s/sub/.." housed [("a", .directory []), ("sub", .directory [])] :=
  ⟨by decide, rfl⟩

/-- Once the directory that the path goes through is gone, the path leads nowhere. -/
theorem cleanScratchIn_nested {arrange : List Text → List Text}
    (subFirst : arrange ["sub", "a"] = (["sub", "a"] : List Text)) :
    cleanScratchIn arrange "s/sub/.." nested = .ok () (housing [("a", .directory [])]) := by
  rw [cleanScratchIn_of_arranged leadsTo_nested subFirst, forM_cons_of_eq
    (removeArtifact_of_doomed leadsTo_nested (by decide) rfl (by decide) (by decide))]
  exact forM_eq_of_spared (by decide) (by decide)

theorem cleaned_nested : Cleaned id nested (housing [("a", .directory [])]) "s/sub/.." housed where
  permutes := fun names => .refl names
  wellFormed := by
    apply wellFormed_housing
    refine .directory (by decide) (by decide) ?_
    simpa using .empty
  leads := ⟨_, leadsTo_nested⟩
  linksOutside := fun name target _ found => absurd found (noLink_nested name target)
  cleaned := cleanScratchIn_nested rfl

/-- A directory with some entries beside another one. -/
def neighbouring (entries : List (Text × Node)) : FileTree :=
  ⟨.directory [("out", .directory []), ("s", .directory entries)], []⟩

/-- A link to the neighbour that goes through a directory beside it. -/
def windingLink : Text × Node := ("a", .link "sub/../../out")

/-- A directory with such a link. -/
def winding : FileTree := neighbouring [windingLink, ("sub", .directory [])]

theorem leadsTo_winding :
    winding.LeadsTo "s" housed [windingLink, ("sub", .directory [])] :=
  ⟨by decide, rfl⟩

/-- Without the directory that it goes through the link leads nowhere, and stays. -/
theorem cleanScratchIn_winding_of_sub_first {arrange : List Text → List Text}
    (subFirst : arrange ["sub", "a"] = (["sub", "a"] : List Text)) :
    cleanScratchIn arrange "s" winding = .ok () (neighbouring [windingLink]) := by
  rw [cleanScratchIn_of_arranged leadsTo_winding subFirst, forM_cons_of_eq
    (removeArtifact_of_doomed leadsTo_winding (by decide) rfl (by decide) (by decide))]
  exact forM_eq_of_spared (by decide) (by decide)

/-- In the other order both of them go. -/
theorem cleanScratchIn_winding_of_link_first {arrange : List Text → List Text}
    (linkFirst : arrange ["sub", "a"] = (["a", "sub"] : List Text)) :
    cleanScratchIn arrange "s" winding = .ok () (neighbouring []) := by
  have leads : (neighbouring [("sub", .directory [])]).LeadsTo "s" housed
      [("sub", .directory [])] := ⟨by decide, rfl⟩
  rw [cleanScratchIn_of_arranged leadsTo_winding linkFirst, forM_cons_of_eq
    (removeArtifact_of_doomed leadsTo_winding (by decide) rfl (by decide) (by decide))]
  exact forM_cons_of_eq
    (removeArtifact_of_doomed leads (by decide) rfl (by decide) (by decide))

theorem cleaned_winding : Cleaned id winding (neighbouring [windingLink]) "s" housed where
  permutes := fun names => .refl names
  wellFormed := by
    refine .directory (by decide) (by decide) ?_
    simp only [List.forall_mem_cons, List.not_mem_nil, IsEmpty.forall_iff, implies_true, and_true]
    refine ⟨.empty, .directory (by decide) (by decide) ?_⟩
    simpa [windingLink] using ⟨.link _, .empty⟩
  leads := ⟨_, leadsTo_winding⟩
  linksOutside := by
    intro name target final found leads
    have isLink : name = "a" := by
      rw [Node.at?_concat leadsTo_winding.isDirectory, windingLink, Node.findEntry, Node.findEntry,
        Node.findEntry] at found
      split_ifs at found with same
      · exact same.symm
      · cases found
    subst isLink
    have outside : winding.locate (Path.join "s" "a") = .ok ["out"] := by
      decide
    rcases Except.ok.inj (outside.symm.trans leads) with rfl
    decide
  cleaned := cleanScratchIn_winding_of_sub_first rfl

/-- Directories may stay where the path of the directory leads through one of them, where the path
of one is too long, and where a link leads through one of them, even if neither of the others is
so. -/
theorem not_forall_clears :
    (¬∀ arrange tree after directory place, Cleaned arrange tree after directory place →
      tree.LinksLeadOutside directory place → AllShort tree directory place →
      Clears tree after directory place) ∧
    (¬∀ arrange tree after directory place, Cleaned arrange tree after directory place →
      tree.ReachesFromOutside directory place → tree.LinksLeadOutside directory place →
      Clears tree after directory place) ∧
    ¬∀ arrange tree after directory place, Cleaned arrange tree after directory place →
      tree.ReachesFromOutside directory place → AllShort tree directory place →
      Clears tree after directory place := by
  refine ⟨fun clears => ?_, fun clears => ?_, fun clears => ?_⟩
  · have stays := clears _ _ _ _ _ cleaned_nested
      (fun name target _ found => absurd found (noLink_nested name target)) ?_
    · cases stays "a" (.directory []) rfl (.inl rfl)
    · intro name found
      rw [nested, at?_housing, Node.findEntry_isSome_iff] at found
      revert name
      decide
  · have stays := clears _ _ _ _ _ (cleaned_deep fun names => .refl names) reachesFromOutside_deep
      (fun name target _ found => absurd found (noLink_deep name target))
    have isDeep : deep.root.at? (housed ++ [longName]) = some (.directory []) :=
      (at?_housing _ _).trans (if_pos rfl)
    cases isDeep.symm.trans (stays longName _ isDeep (.inl rfl))
  · have stays := clears _ _ _ _ _ cleaned_winding (fun others => rfl) ?_
    · cases stays "a" (.link "sub/../../out") rfl (.inr (by decide))
    · intro name found
      rw [Node.at?_concat leadsTo_winding.isDirectory, Node.findEntry_isSome_iff] at found
      revert name
      decide

end exceptions

end Toolchain

end CompiledViews
