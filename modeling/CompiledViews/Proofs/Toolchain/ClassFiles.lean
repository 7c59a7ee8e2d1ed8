import CompiledViews.Proofs.Text.Order
import CompiledViews.Proofs.Toolchain.Cleaning

/-!
# Class files of a run

After a directory is made ready for a run it holds no class files that would be found, so those that
are found later are new. A directory whose path is too long may stay, but what is in it is not found
either.
-/

namespace CompiledViews.Toolchain

open FileTree

variable {tree after : FileTree} {directory name : Text} {place names : List Text}
  {entries : List (Text × Node)}

section classFiles

/-- Whether names lead to what may be a class file: not below the directory that only describes the
module, and with the extension of one. -/
def NamesClass (names : List Text) : Prop :=
  names.head? ≠ some ("META-INF" : Text) ∧
    ∃ last ∈ names.getLast?, Path.extension? last = some ("class" : Text)

theorem isClassFile_iff {node : Node} : isClassFile names node = true ↔
    NamesClass names ∧ ∃ content, node = .file content := by
  cases node with
  | file content =>
      cases names with
      | nil => simp [isClassFile, NamesClass]
      | cons first rest =>
          cases last : (first :: rest).getLast? <;>
            simp [isClassFile, NamesClass, last]
  | directory others => simp [isClassFile]
  | link target => simp [isClassFile]

theorem classFiles_eq (leads : tree.LeadsTo directory place entries) :
    classFiles tree directory =
      Text.sort ((Node.directory entries).places.filterMap fun (names, node) =>
        if isClassFile names node && isReadable directory names then some (Text.join "/" names)
        else none) := by
  rw [classFiles, node?, leads.located]
  simp only [leads.isDirectory]

/-- The class files below a directory are those whose directories can be opened by their paths. -/
theorem mem_classFiles_iff (wellFormed : tree.root.WellFormed)
    (leads : tree.LeadsTo directory place entries) {text : Text} :
    text ∈ classFiles tree directory ↔ ∃ names content, text = Text.join "/" names ∧
      tree.root.at? (place ++ names) = some (.file content) ∧ NamesClass names ∧
      isReadable directory names = true := by
  have belowWellFormed := wellFormed.at? leads.isDirectory
  have below (names : List Text) :
      tree.root.at? (place ++ names) = (Node.directory entries).at? names := by
    rw [Node.at?_append, leads.isDirectory, Option.bind_some]
  rw [classFiles_eq leads, Text.mem_sort, List.mem_filterMap]
  constructor
  · rintro ⟨⟨names, node⟩, member, found⟩
    rw [Option.ite_none_right_eq_some, Bool.and_eq_true, isClassFile_iff] at found
    rcases found with ⟨⟨⟨namesClass, content, rfl⟩, readable⟩, isText⟩
    rw [Node.mem_places_iff belowWellFormed] at member
    exact ⟨names, content, (Option.some.inj isText).symm, (below names).trans member.2, namesClass,
      readable⟩
  · rintro ⟨names, content, rfl, found, namesClass, readable⟩
    refine ⟨(names, .file content), ?_, ?_⟩
    · rw [Node.mem_places_iff belowWellFormed]
      refine ⟨?_, (below names).symm.trans found⟩
      rintro rfl
      simp [NamesClass] at namesClass
    · rw [Option.ite_none_right_eq_some, Bool.and_eq_true, isClassFile_iff]
      exact ⟨⟨⟨namesClass, content, rfl⟩, readable⟩, rfl⟩

/-- No class file comes twice. -/
theorem pairwise_precedes_classFiles (wellFormed : tree.root.WellFormed)
    (leads : tree.LeadsTo directory place entries) :
    (classFiles tree directory).Pairwise fun left right => Text.precedes left right = true := by
  have belowWellFormed := wellFormed.at? leads.isDirectory
  have splits {names : List Text} {node : Node}
      (member : (names, node) ∈ (Node.directory entries).places) :
      Text.splitAll '/' (Text.join "/" names) = names := by
    rw [Node.mem_places_iff belowWellFormed] at member
    exact Text.splitAll_join member.1 fun name inNames =>
      (belowWellFormed.isEntryName_of_at? member.2 name inNames).noSlash
  have distinct := Node.nodup_places _ belowWellFormed
  rw [List.Nodup, List.pairwise_map] at distinct
  rw [classFiles_eq leads]
  apply Text.pairwise_precedes_sort
  rw [List.Nodup, List.pairwise_filterMap]
  refine distinct.imp_of_mem ?_
  rintro ⟨names, node⟩ ⟨others, other⟩ member memberOther different text isText twin isOther same
  rw [Option.ite_none_right_eq_some, Option.some.injEq] at isText isOther
  apply different
  rw [← splits member, ← splits memberOther, isText.2, isOther.2, same]

end classFiles

section writeFiles

variable {files : List (Text × Text)}

/-- What writing files does: the directory gets other entries, those of the files among them. -/
theorem exists_withEntries_of_writeFiles (leads : tree.LeadsTo directory place entries)
    (wellFormed : (Node.directory entries).WellFormed)
    (areNames : ∀ file ∈ files, Path.IsEntryName file.1) (distinct : (files.map Prod.fst).Nodup)
    (noLinks : ∀ file ∈ files, ∀ target, Node.findEntry file.1 entries ≠ some (.link target))
    (written : writeFiles directory files tree = .ok () after) :
    ∃ others, after = tree.withEntries place others ∧ (Node.directory others).WellFormed ∧
      (Node.directory entries).Within (.directory others) ∧
      (∀ file ∈ files, Node.findEntry file.1 others = some (.file (Text.utf8 file.2))) ∧
      ∀ name ∉ files.map Prod.fst, Node.findEntry name others = Node.findEntry name entries := by
  induction files generalizing tree entries with
  | nil =>
      rcases (EStateM.Result.ok.inj written).2 with rfl
      exact ⟨entries, (withEntries_self leads.isDirectory).symm, wellFormed, .refl _, by simp,
        fun _ _ => rfl⟩
  | cons file files ih =>
      rcases file with ⟨first, text⟩
      rw [List.forall_mem_cons] at areNames noLinks
      rw [List.map_cons, List.nodup_cons] at distinct
      rcases exists_of_seq_eq_ok written with ⟨middle, isFirst, rest⟩
      rcases leads.of_writeFile_entry areNames.1 noLinks.1 isFirst with ⟨rfl, noDirectory⟩
      have grown : (Node.directory entries).Within
          (.directory (Node.setEntry first (.file (Text.utf8 text)) entries)) := by
        apply Node.Within.setEntry
        intro child isChild
        cases child with
        | file content => exact .file content _
        | link target => exact absurd isChild (noLinks.1 target)
        | directory others => exact absurd isChild (noDirectory others)
      have different (file : Text × Text) (member : file ∈ files) : file.1 ≠ first := by
        rintro rfl
        exact distinct.1 (List.mem_map.2 ⟨file, member, rfl⟩)
      have noLinksStill : ∀ file ∈ files, ∀ target, Node.findEntry file.1
          (Node.setEntry first (.file (Text.utf8 text)) entries) ≠ some (.link target) := by
        intro file member target
        rw [Node.findEntry_setEntry, if_neg (different file member)]
        exact noLinks.2 file member target
      rcases ih (leads.withEntries grown) (wellFormed.setEntry areNames.1 (.file _)) areNames.2
        distinct.2 noLinksStill rest with
        ⟨others, rfl, othersWellFormed, within, areWritten, unchanged⟩
      refine ⟨others, withEntries_withEntries leads.isDirectory, othersWellFormed,
        grown.trans within, ?_, ?_⟩
      · rw [List.forall_mem_cons]
        refine ⟨?_, areWritten⟩
        rw [unchanged first distinct.1, Node.findEntry_setEntry, if_pos rfl]
      · intro name absent
        rw [List.map_cons, List.mem_cons, not_or] at absent
        rw [unchanged name absent.2, Node.findEntry_setEntry, if_neg absent.1]

/-- Files that are not there yet come after the other entries. -/
theorem writeFiles_eq (leads : tree.LeadsTo directory place entries)
    (areNames : ∀ file ∈ files, Path.IsEntryName file.1)
    (short : ∀ file ∈ files, Text.utf8Length (Path.join directory file.1) ≤ maxPathBytes)
    (distinct : (files.map Prod.fst).Nodup)
    (missing : ∀ file ∈ files, Node.findEntry file.1 entries = none) :
    writeFiles directory files tree = .ok () (tree.withEntries place
      (entries ++ files.map fun file => (file.1, .file (Text.utf8 file.2)))) := by
  induction files generalizing tree entries with
  | nil =>
      rw [List.map_nil, List.append_nil, withEntries_self leads.isDirectory]
      rfl
  | cons file files ih =>
      rcases file with ⟨first, text⟩
      rw [List.forall_mem_cons] at areNames short missing
      rw [List.map_cons, List.nodup_cons] at distinct
      have noLink : ∀ target, Node.findEntry first entries ≠ some (.link target) := by
        simp [missing.1]
      have written : writeFile (Path.join directory first) (Text.utf8 text) tree = .ok ()
          (tree.withEntries place (Node.setEntry first (.file (Text.utf8 text)) entries)) := by
        rw [leads.writeFile_entry areNames.1 noLink, if_pos short.1, missing.1]
      have grown := Node.Within.setEntry_of_none missing.1 (.file (Text.utf8 text))
      have missingStill : ∀ file ∈ files, Node.findEntry file.1
          (Node.setEntry first (.file (Text.utf8 text)) entries) = none := by
        intro file member
        rw [Node.findEntry_setEntry, if_neg, missing.2 file member]
        rintro rfl
        exact distinct.1 (List.mem_map.2 ⟨file, member, rfl⟩)
      change EStateM.bind _ (fun _ => writeFiles directory files) tree = _
      rw [EStateM.bind, written]
      simp only
      rw [ih (leads.withEntries grown) areNames.2 short.2 distinct.2 missingStill,
        withEntries_withEntries leads.isDirectory, Node.setEntry_eq_append missing.1,
        List.append_assoc]
      rfl

end writeFiles

section cleaned

/-- An entry that stays holds no class file that would be found. -/
theorem not_readable_of_judged {earlier : Text → Bool} {first : Text} {rest : List Text}
    {child : Node} {content : Bytes}
    (leads : (tree.restrict place entries earlier).LeadsTo directory place
      (entries.filter fun entry => earlier entry.1))
    (present : earlier first = true) (isSpared : spares (tree.restrict place entries earlier)
      directory first = true)
    (areNames : ∀ name ∈ first :: rest, Path.IsEntryName name)
    (found : Node.findEntry first entries = some child)
    (isFile : child.at? rest = some (.file content)) (namesClass : NamesClass (first :: rest)) :
    isReadable directory (first :: rest) = false := by
  have foundLater : Node.findEntry first (entries.filter fun entry => earlier entry.1) =
      some child := by
    rw [Node.findEntry_filter, if_pos present, found]
  rw [List.forall_mem_cons] at areNames
  rw [spares, Bool.and_eq_true, Bool.not_eq_true', Bool.not_eq_true'] at isSpared
  cases child with
  | link target => cases rest <;> cases isFile
  | file old =>
      cases rest with
      | cons second rest => cases isFile
      | nil =>
          rcases namesClass.2 with ⟨last, isLast, isClass⟩
          rcases Option.some.inj isLast with rfl
          rw [isArtifactName, show Path.extension? first = _ from isClass] at isSpared
          cases isSpared.2
  | directory others =>
      rw [leads.isDirectory_entry areNames.1 foundLater (by simp)] at isSpared
      cases rest with
      | nil => cases isFile
      | cons second rest =>
          have long : ¬Text.utf8Length (Path.join directory first) ≤ maxPathBytes := by
            simpa [Node.isDirectory] using isSpared.1
          have longer : Text.utf8Length (Path.join directory first) ≤
              Text.utf8Length
                ((second :: rest).dropLast.foldl Path.join (Path.join directory first)) :=
            Path.utf8Length_le_foldl_join fun name member =>
              areNames.2 name ((List.dropLast_sublist _).subset member)
          rw [isReadable, List.dropLast_cons_of_ne_nil (List.cons_ne_nil second rest),
            List.foldl_cons]
          simp only [decide_eq_false_iff_not]
          omega

end cleaned

section prepare

/-- The files that are written for a run, with their texts. -/
def sources (source : Text) : List (Text × Text) := (sourceFile, source) :: supportFiles

theorem map_fst_sources (source : Text) :
    (sources source).map Prod.fst = [sourceFile, "Keep.kt", "NeverInline.kt"] := rfl

theorem isEntryName_sources {file : Text × Text} {source : Text} (member : file ∈ sources source) :
    Path.IsEntryName file.1 := by
  have inNames : file.1 ∈ (sources source).map Prod.fst := List.mem_map.2 ⟨file, member, rfl⟩
  rw [map_fst_sources] at inNames
  revert inNames
  generalize file.1 = name
  revert name
  decide

theorem nodup_sources (source : Text) : ((sources source).map Prod.fst).Nodup := by
  rw [map_fst_sources]
  decide

theorem not_isClass_sources {source : Text} (member : name ∈ (sources source).map Prod.fst) :
    Path.extension? name ≠ some ("class" : Text) := by
  rw [map_fst_sources] at member
  revert name
  decide

variable {arrange : List Text → List Text} {source : Text}

theorem within_of_cleanScratchIn (cleaned : cleanScratchIn arrange directory tree = .ok () after) :
    after.Within tree := by
  rw [cleanScratchIn_eq] at cleaned
  split at cleaned
  · exact within_of_forM cleaned
  · cases cleaned

theorem exists_of_prepareScratchIn
    (prepared : prepareScratchIn arrange directory source tree = .ok () after) :
    ∃ made cleaned, makeDirectories directory tree = .ok () made ∧
      cleanScratchIn arrange directory made = .ok () cleaned ∧
      writeFiles directory (sources source) cleaned = .ok () after := by
  rcases exists_of_seq_eq_ok prepared with ⟨made, isMade, rest⟩
  rcases exists_of_seq_eq_ok rest with ⟨cleaned, isCleaned, written⟩
  exact ⟨made, cleaned, isMade, isCleaned, written⟩

/-- Where sources can be written behind a cleaned directory its path leads to one. -/
theorem exists_leadsTo_of_writeFiles
    (cleaned : cleanScratchIn arrange directory tree = .ok () after) {final : FileTree}
    (written : writeFiles directory (sources source) after = .ok () final) :
    ∃ place entries, after.LeadsTo directory place entries := by
  rcases exists_leadsTo_of_cleanScratchIn cleaned with ⟨place, entries, leads⟩
  rcases exists_of_seq_eq_ok written with ⟨middle, first, _⟩
  have isName : Path.IsEntryName sourceFile := by decide
  exact exists_leadsTo_of_writeFile leads.checked isName first

/-- Whether none of the files that are written for a run is a link where its directory is. -/
def SourcesUnlinked (tree : FileTree) (directory source : Text) : Prop :=
  ∀ made place, makeDirectories directory tree = .ok () made →
    made.locate directory = .ok place → ∀ file ∈ sources source, ∀ target,
      tree.root.at? (place ++ [file.1]) ≠ some (.link target)

/-- What the files are like when a directory is ready for a run. -/
structure Ready (tree : FileTree) (directory source : Text) (place : List Text) : Prop where
  wellFormed : tree.root.WellFormed
  leads : ∃ entries, tree.LeadsTo directory place entries
  hasSources : ∀ file ∈ sources source,
    tree.root.at? (place ++ [file.1]) = some (.file (Text.utf8 file.2))
  noClassFiles : classFiles tree directory = []

/-- A cleaned directory with the sources holds no class files that would be found. -/
theorem classFiles_eq_nil {kept : Text → Bool} {others : List (Text × Node)}
    (wellFormed : after.root.WellFormed) (leads : after.LeadsTo directory place others)
    (isDirectory : tree.root.at? place = some (.directory entries))
    (areWritten : ∀ file ∈ sources source,
      Node.findEntry file.1 others = some (.file (Text.utf8 file.2)))
    (unchanged : ∀ name ∉ (sources source).map Prod.fst, Node.findEntry name others =
      Node.findEntry name (entries.filter fun entry => kept entry.1))
    (judged : ∀ name, (Node.findEntry name entries).isSome → ∃ earlier : Text → Bool,
      earlier name = true ∧ (tree.restrict place entries earlier).locate directory = .ok place ∧
        kept name = spares (tree.restrict place entries earlier) directory name) :
    classFiles after directory = [] := by
  rw [List.eq_nil_iff_forall_not_mem]
  intro text member
  rw [mem_classFiles_iff wellFormed leads] at member
  rcases member with ⟨names, content, rfl, isFile, namesClass, readable⟩
  rw [Node.at?_append, leads.isDirectory, Option.bind_some] at isFile
  have areNames := (wellFormed.at? leads.isDirectory).isEntryName_of_at? isFile
  cases names with
  | nil => cases isFile
  | cons first rest =>
      rw [Node.at?_cons, Option.bind_eq_some_iff] at isFile
      rcases isFile with ⟨child, found, isFile⟩
      by_cases isSource : first ∈ (sources source).map Prod.fst
      · rcases List.mem_map.1 isSource with ⟨file, inSources, rfl⟩
        rw [areWritten file inSources] at found
        rcases Option.some.inj found with rfl
        cases rest with
        | cons second rest => cases isFile
        | nil =>
            rcases namesClass.2 with ⟨last, isLast, isClass⟩
            rcases Option.some.inj isLast with rfl
            exact not_isClass_sources isSource isClass
      · rw [unchanged first isSource, Node.findEntry_filter, Option.ite_none_right_eq_some] at found
        rcases judged first (by simp [found.2]) with ⟨earlier, present, located, isJudged⟩
        have here : (tree.restrict place entries earlier).LeadsTo directory place
            (entries.filter fun entry => earlier entry.1) :=
          ⟨located, at?_withEntries isDirectory⟩
        have unreadable := not_readable_of_judged here present (isJudged.symm.trans found.1)
          areNames found.2 isFile namesClass
        rw [unreadable] at readable
        cases readable

/-- After a directory is made ready it holds the sources and no class files. -/
theorem ready_of_prepareScratchIn (permutes : ∀ names, (arrange names).Perm names)
    (wellFormed : tree.root.WellFormed) (unlinked : SourcesUnlinked tree directory source)
    (prepared : prepareScratchIn arrange directory source tree = .ok () after) :
    ∃ place, Ready after directory source place := by
  rcases exists_of_prepareScratchIn prepared with ⟨made, cleaned, isMade, isCleaned, written⟩
  rcases grownFrom_of_makeDirectories wellFormed isMade with ⟨madeWellFormed, links⟩
  rcases exists_leadsTo_of_writeFiles isCleaned written with ⟨place, few, cleanedLeads⟩
  rcases cleanedLeads.within (within_of_cleanScratchIn isCleaned) with ⟨entries, madeLeads⟩
  have leadsLater (kept : Text → Bool)
      (within : cleaned.Within (made.restrict place entries kept)) :
      (made.restrict place entries kept).locate directory = .ok place :=
    within.locate cleanedLeads.located
  rcases exists_restrict_of_cleanScratchIn permutes madeWellFormed madeLeads leadsLater
    isCleaned with ⟨kept, rfl, judged⟩
  have belowWellFormed : (Node.directory (entries.filter fun entry => kept entry.1)).WellFormed :=
    (madeWellFormed.at? madeLeads.isDirectory).filter _
  have cleanedLeads : (made.restrict place entries kept).LeadsTo directory place
      (entries.filter fun entry => kept entry.1) :=
    ⟨cleanedLeads.located, at?_withEntries madeLeads.isDirectory⟩
  have noLinks : ∀ file ∈ sources source, ∀ target, Node.findEntry file.1
      (entries.filter fun entry => kept entry.1) ≠ some (.link target) := by
    intro file member target isLink
    rw [Node.findEntry_filter, Option.ite_none_right_eq_some,
      ← Node.at?_concat madeLeads.isDirectory] at isLink
    exact unlinked made place isMade madeLeads.located file member target
      (links _ target isLink.2)
  rcases exists_withEntries_of_writeFiles cleanedLeads belowWellFormed
    (fun file member => isEntryName_sources member) (nodup_sources source) noLinks written with
    ⟨others, rfl, othersWellFormed, grown, areWritten, unchanged⟩
  have afterWellFormed : ((made.restrict place entries kept).withEntries place
      others).root.WellFormed :=
    (madeWellFormed.put madeLeads.isDirectory belowWellFormed).put cleanedLeads.isDirectory
      othersWellFormed
  have afterLeads := cleanedLeads.withEntries grown
  refine ⟨place, afterWellFormed, ⟨others, afterLeads⟩, ?_, ?_⟩
  · intro file member
    rw [Node.at?_concat afterLeads.isDirectory, areWritten file member]
  · apply classFiles_eq_nil afterWellFormed afterLeads madeLeads.isDirectory areWritten unchanged
    intro name found
    rcases judged name found with ⟨earlier, present, within, isJudged⟩
    exact ⟨earlier, present, leadsLater earlier within, isJudged⟩

/-- Class files that are found after a directory was made ready are new, whatever it held before.
They are those whose directories can be opened, in strict order. -/
theorem classFiles_of_prepareScratchIn (permutes : ∀ names, (arrange names).Perm names)
    (wellFormed : tree.root.WellFormed) (unlinked : SourcesUnlinked tree directory source)
    (prepared : prepareScratchIn arrange directory source tree = .ok () after) :
    classFiles after directory = [] ∧ ∃ place, after.locate directory = .ok place ∧
      (∀ file ∈ (sourceFile, source) :: supportFiles,
        after.root.at? (place ++ [file.1]) = some (.file (Text.utf8 file.2))) ∧
      ∀ later : FileTree, later.root.WellFormed → after.Within later →
        ((classFiles later directory).Pairwise fun left right => Text.precedes left right = true) ∧
        ∀ text, text ∈ classFiles later directory ↔ ∃ names content,
          text = Text.join "/" names ∧
          later.root.at? (place ++ names) = some (.file content) ∧
          (∀ old, after.root.at? (place ++ names) ≠ some (.file old)) ∧ NamesClass names ∧
          Text.utf8Length (names.dropLast.foldl Path.join directory) ≤ maxPathBytes := by
  rcases ready_of_prepareScratchIn permutes wellFormed unlinked prepared with ⟨place, ready⟩
  rcases ready.leads with ⟨entries, leads⟩
  refine ⟨ready.noClassFiles, place, leads.located, ready.hasSources, ?_⟩
  intro later laterWellFormed within
  rcases leads.within within with ⟨many, laterLeads⟩
  refine ⟨pairwise_precedes_classFiles laterWellFormed laterLeads, fun text => ?_⟩
  rw [mem_classFiles_iff laterWellFormed laterLeads]
  constructor
  · rintro ⟨names, content, isText, isFile, namesClass, readable⟩
    refine ⟨names, content, isText, isFile, fun old isOld => ?_, namesClass,
      of_decide_eq_true readable⟩
    have stale : text ∈ classFiles after directory :=
      (mem_classFiles_iff ready.wellFormed leads).2
        ⟨names, old, isText, isOld, namesClass, readable⟩
    rw [ready.noClassFiles] at stale
    cases stale
  · rintro ⟨names, content, isText, isFile, _, namesClass, short⟩
    exact ⟨names, content, isText, isFile, namesClass, decide_eq_true short⟩

theorem sourcesUnlinked_furnished : SourcesUnlinked furnished "s" "x" := by
  intro made place isMade located file member target isLink
  rcases (EStateM.Result.ok.inj (leadsTo_furnished.makeDirectories.symm.trans isMade)).2 with rfl
  rcases Except.ok.inj (leadsTo_furnished.located.symm.trans located) with rfl
  rw [Node.at?_concat isDirectory_furnished] at isLink
  have inNames : file.1 ∈ (sources "x").map Prod.fst := List.mem_map.2 ⟨file, member, rfl⟩
  have inEntries := Node.mem_of_findEntry isLink
  rw [map_fst_sources] at inNames
  have isL : file.1 = "l" ∧ target = "../out" := by simpa using inEntries
  rw [isL.1] at inNames
  revert inNames
  decide

/-- A directory with a class file in it has none after it is made ready. -/
theorem classFiles_of_prepareScratchIn_furnished :
    classFiles (left (prepareScratchIn List.reverse "s" "x" furnished)) "s" = [] := by
  have success : succeeds (prepareScratchIn List.reverse "s" "x" furnished) = true := by
    decide +kernel
  exact (classFiles_of_prepareScratchIn List.reverse_perm wellFormed_furnished
    sourcesUnlinked_furnished (eq_ok_of_succeeds success)).1

end prepare

section exceptions

/-- An empty directory is ready once the files of a run are written. -/
theorem prepareScratch_of_empty {source : Text} (leads : tree.LeadsTo directory place [])
    (short : ∀ name ∈ (sources source).map Prod.fst,
      Text.utf8Length (Path.join directory name) ≤ maxPathBytes) :
    prepareScratch directory source tree = .ok () (tree.withEntries place
      ((sources source).map fun file => (file.1, .file (Text.utf8 file.2)))) := by
  have cleans : cleanScratchIn NameHash.arrange directory tree = .ok () tree :=
    cleanScratchIn_of_arranged leads (List.perm_nil.1 (NameHash.arrange_perm []))
  have writes := writeFiles_eq leads (fun file member => isEntryName_sources member)
    (fun file member => short file.1 (List.mem_map.2 ⟨file, member, rfl⟩)) (nodup_sources source)
    (fun _ _ => rfl)
  change EStateM.bind (makeDirectories directory)
    (fun _ => EStateM.bind (cleanScratchIn NameHash.arrange directory)
      fun _ => writeFiles directory (sources source)) tree = _
  rw [EStateM.bind, leads.makeDirectories]
  simp only
  rw [EStateM.bind, cleans]
  exact writes

/-- A directory that is ready for a run. -/
def started : FileTree :=
  housing ((sources "x").map fun file => (file.1, .file (Text.utf8 file.2)))

theorem prepareScratch_started :
    prepareScratch (slashed 3950) "x" (housing []) = .ok () started := by
  refine prepareScratch_of_empty (leadsTo_slashed (by decide) []) fun name member => ?_
  have isName : Path.IsEntryName name ∧ Text.utf8Length name ≤ 100 := by
    rw [map_fst_sources] at member
    revert name
    decide
  rw [utf8Length_join_slashed isName.1, maxPathBytes]
  omega

theorem noLink_housing (place : List Text) (target : Text) :
    (housing []).root.at? place ≠ some (.link target) := by
  intro isLink
  rcases place with _ | ⟨first, place⟩
  · cases isLink
  · rw [housing, Node.at?_cons, Node.findEntry, Node.findEntry] at isLink
    split_ifs at isLink
    · cases place <;> cases isLink
    · cases isLink

theorem leadsTo_started : started.LeadsTo (slashed 3950) housed
    ((sources "x").map fun file => (file.1, .file (Text.utf8 file.2))) :=
  leadsTo_slashed (by decide) _

theorem longName_missing : Node.findEntry longName
    ((sources "x").map fun file => (file.1, Node.file (Text.utf8 file.2))) = none := by
  rw [← Option.not_isSome_iff_eq_none, Node.findEntry_isSome_iff, List.map_map]
  change longName ∉ (sources "x").map Prod.fst
  rw [map_fst_sources]
  decide

/-- A directory with a class file. -/
def classHousing : Node := .directory [("A.class", .file [])]

theorem wellFormed_classHousing : classHousing.WellFormed := by
  refine .directory (by decide) (by decide) ?_
  simpa using .file []

/-- A class file that is added in a directory whose path is too long is not found. -/
theorem exists_not_mem_classFiles (wellFormed : tree.root.WellFormed)
    (leads : tree.LeadsTo directory place entries) (isName : Path.IsEntryName name)
    (absent : Node.findEntry name entries = none)
    (long : ¬Text.utf8Length (Path.join directory name) ≤ maxPathBytes) :
    ∃ later : FileTree, later.root.WellFormed ∧ tree.Within later ∧
      later.root.at? (place ++ [name, "A.class"]) = some (.file []) ∧
      (∀ old, tree.root.at? (place ++ [name, "A.class"]) ≠ some (.file old)) ∧
      Text.join "/" [name, "A.class"] ∉ classFiles later directory := by
  have grown := Node.Within.setEntry_of_none absent classHousing
  have laterLeads := leads.withEntries grown
  have laterWellFormed := wellFormed_withEntries leads.isDirectory wellFormed
    ((wellFormed.at? leads.isDirectory).setEntry isName wellFormed_classHousing)
  refine ⟨_, laterWellFormed, ?_, ?_, ?_, ?_⟩
  · have within := within_withEntries leads.isDirectory grown
    rwa [withEntries_self leads.isDirectory] at within
  · rw [Node.at?_append, laterLeads.isDirectory, Option.bind_some, Node.at?_cons,
      Node.findEntry_setEntry, if_pos rfl]
    rfl
  · intro old isOld
    rw [Node.at?_append, leads.isDirectory, Option.bind_some, Node.at?_cons, absent] at isOld
    cases isOld
  · intro member
    rw [mem_classFiles_iff laterWellFormed laterLeads] at member
    rcases member with ⟨names, content, same, isFile, namesClass, readable⟩
    have areNames : ∀ other ∈ names, Path.IsEntryName other := by
      rw [Node.at?_append, laterLeads.isDirectory, Option.bind_some] at isFile
      exact (laterWellFormed.at? laterLeads.isDirectory).isEntryName_of_at? isFile
    have nonempty : names ≠ [] := by
      rintro rfl
      simp [NamesClass] at namesClass
    have isNames : names = [name, "A.class"] := by
      rw [← Text.splitAll_join nonempty fun other inNames => (areNames other inNames).noSlash]
      refine (congrArg (Text.splitAll '/') same.symm).trans (Text.splitAll_join (by simp) ?_)
      simpa using isName.noSlash
    rw [isNames] at readable
    exact long (of_decide_eq_true readable)

/-- A class file need not be found where the path of its directory is too long. -/
theorem not_forall_mem_classFiles :
    ¬∀ (tree after later : FileTree) (directory source : Text) (place names : List Text)
      (content : Bytes), tree.root.WellFormed → SourcesUnlinked tree directory source →
      prepareScratch directory source tree = .ok () after →
      after.locate directory = .ok place → later.root.WellFormed → after.Within later →
      later.root.at? (place ++ names) = some (.file content) →
      (∀ old, after.root.at? (place ++ names) ≠ some (.file old)) → NamesClass names →
      Text.join "/" names ∈ classFiles later directory := by
  intro finds
  have wellFormed := wellFormed_housing .empty
  have unlinked : SourcesUnlinked (housing []) (slashed 3950) "x" :=
    fun _ _ _ _ _ _ _ => noLink_housing _ _
  rcases ready_of_prepareScratchIn NameHash.arrange_perm wellFormed unlinked
    prepareScratch_started with ⟨place, ready⟩
  rcases exists_not_mem_classFiles ready.wellFormed leadsTo_started isEntryName_longName
    longName_missing not_short_longName with
    ⟨later, laterWellFormed, within, isFile, isNew, notFound⟩
  have namesClass : NamesClass [longName, "A.class"] :=
    ⟨by decide, "A.class", rfl, by decide⟩
  exact notFound (finds _ _ _ _ _ _ _ _ wellFormed unlinked prepareScratch_started
    leadsTo_started.located laterWellFormed within isFile isNew namesClass)

end exceptions

end CompiledViews.Toolchain
