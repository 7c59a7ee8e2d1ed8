import CompiledViews.Proofs.Text.Version
import CompiledViews.Toolchain.Paths

/-!
# Which version of the tools is taken

The tools and the platform are to be those of the newest version that is there. They are taken from
the directory whose name comes last as a text. That is the newest one where numerals at the same
place have the same number of digits; but a version with fewer digits may come after a newer one.
-/

namespace CompiledViews.ToolPaths

open CompiledViews.Path (join)
open Text hiding join

variable {tree : FileTree} {directory mark name : Text}

/-- The names of the directories in a directory. -/
def subdirectories (tree : FileTree) (directory : Text) : List Text :=
  (namesIn tree directory).filter fun name => tree.isDirectory (join directory name)

/-- A version that a directory has a directory for, whose name is that of the version behind a
mark. -/
def IsThere (tree : FileTree) (directory mark version : Text) : Prop :=
  mark ++ version ∈ subdirectories tree directory

/-- Whether all directories in a directory are those of versions, and whether there are any. -/
structure HasVersions (tree : FileTree) (directory mark : Text) : Prop where
  some : subdirectories tree directory ≠ []
  areVersions : ∀ name ∈ subdirectories tree directory,
    ∃ version, name = mark ++ version ∧ IsVersion version

/-- Whether a directory has a version and none that is newer. -/
def IsNewest (tree : FileTree) (directory mark version : Text) : Prop :=
  IsThere tree directory mark version ∧
    ∀ other, IsThere tree directory mark other → Text.version other ≤ Text.version version

/-- The version that is taken from a directory: its name comes last, numeral by numeral as a text.
Where numerals at the same place have the same number of digits it is no older than another one, and
without idle zeros it is older than another one exactly if it has fewer digits where they first
differ. -/
structure IsTaken (tree : FileTree) (directory mark version : Text) : Prop where
  isThere : IsThere tree directory mark version
  comesLast : ∀ other, IsThere tree directory mark other → other ≠ version →
    Precede (numerals other) (numerals version)
  newest_of_length : ∀ other, IsThere tree directory mark other →
    (∀ pair ∈ (numerals other).zip (numerals version), pair.1.length = pair.2.length) →
    Text.version other ≤ Text.version version
  older_iff : ∀ other, IsThere tree directory mark other →
    (∀ numeral ∈ numerals other, IsPlain numeral) →
    (∀ numeral ∈ numerals version, IsPlain numeral) →
    (Text.version version < Text.version other ↔
      HasFewerDigits (numerals version) (numerals other))

theorem precedes_append_left (mark left right : Text) :
    precedes (mark ++ left) (mark ++ right) = precedes left right := by
  induction mark with
  | nil => rfl
  | cons first mark ih => simp [precedes, ih]

/-- Of the versions that a directory has one is taken. -/
theorem exists_isTaken (versions : HasVersions tree directory mark) :
    ∃ version, latestChild? tree directory = some (join directory (mark ++ version)) ∧
      IsTaken tree directory mark version := by
  have someSorted : sort (subdirectories tree directory) ≠ [] := by
    rcases List.exists_mem_of_ne_nil _ versions.some with ⟨name, member⟩
    exact List.ne_nil_of_mem (mem_sort.2 member)
  rcases notAfter_of_getLast?_sort (List.getLast?_eq_some_getLast someSorted) with
    ⟨isThere, notAfterLast⟩
  have isLast := List.getLast?_eq_some_getLast someSorted
  generalize (sort (subdirectories tree directory)).getLast someSorted = last at *
  rcases versions.areVersions last isThere with ⟨version, rfl, isVersion⟩
  have isOther {other : Text} (otherThere : IsThere tree directory mark other) :
      IsVersion other := by
    rcases versions.areVersions _ otherThere with ⟨same, isSame, isName⟩
    rwa [List.append_cancel_left isSame]
  have comesLast (other : Text) (otherThere : IsThere tree directory mark other)
      (differ : other ≠ version) : Precede (numerals other) (numerals version) := by
    rw [← precedes_iff_of_isVersion (isOther otherThere) isVersion]
    have notBehind := notAfterLast _ otherThere
    rw [notAfter, precedes_append_left, Bool.not_eq_true'] at notBehind
    rcases precedes_trichotomy other version with before | same | behind
    · exact before
    · exact absurd same differ
    · exact absurd behind (by simp [notBehind])
  refine ⟨version, ?_, isThere, comesLast, ?_, ?_⟩
  · rw [latestChild?]
    exact congrArg (Option.map (join directory)) isLast
  · intro other otherThere sameLength
    by_cases differ : other = version
    · rw [differ]
    · exact map_decimalValue_le (isOther otherThere) isVersion sameLength
        (comesLast other otherThere differ)
  · intro other otherThere arePlain isPlain
    by_cases differ : other = version
    · rw [differ]
      refine iff_of_false (lt_irrefl _) (not_hasFewerDigits_self _)
    · exact map_decimalValue_lt_iff
        (fun numeral member => ⟨isOther otherThere numeral member, arePlain numeral member⟩)
        (fun numeral member => ⟨isVersion numeral member, isPlain numeral member⟩)
        (comesLast other otherThere differ)

/-- The tools and the platform are those of the versions whose names come last. -/
theorem find_isTaken {androidHome : Text} (kotlinHome : Text)
    (tools : HasVersions tree (join androidHome "build-tools") [])
    (platforms : HasVersions tree (join androidHome "platforms") "android-") :
    ∃ tool platform,
      IsTaken tree (join androidHome "build-tools") [] tool ∧
      IsTaken tree (join androidHome "platforms") "android-" platform ∧
      (find tree androidHome kotlinHome).d8 =
        join (join (join (join androidHome "build-tools") tool) "lib") "d8.jar" ∧
      (find tree androidHome kotlinHome).dexdump =
        join (join (join androidHome "build-tools") tool) "dexdump" ∧
      (find tree androidHome kotlinHome).platform =
        join (join (join androidHome "platforms") ("android-" ++ platform)) "android.jar" := by
  rcases exists_isTaken tools with ⟨tool, isTool, toolTaken⟩
  rcases exists_isTaken platforms with ⟨platform, isPlatform, platformTaken⟩
  refine ⟨tool, platform, toolTaken, platformTaken, ?_, ?_, ?_⟩
  · rw [find, isTool]
    rfl
  · rw [find, isTool]
    rfl
  · rw [find, isPlatform]
    rfl

/-- A directory with tools of the given versions and a platform for each of them. -/
def android (tools platforms : List Text) : FileTree where
  root := .directory [("a", .directory [
    ("build-tools", .directory (tools.map fun name => (name, .directory []))),
    ("platforms", .directory (platforms.map fun name => ("android-" ++ name, .directory [])))])]
  current := []

theorem hasVersions_of_all (versions : List Text)
    (names : subdirectories tree directory = versions.map (mark ++ ·)) (some : versions ≠ [])
    (areVersions : ∀ version ∈ versions, ∀ numeral ∈ numerals version, IsDigits numeral) :
    HasVersions tree directory mark := by
  refine ⟨?_, fun name member => ?_⟩
  · rw [names]
    simpa using some
  · rw [names, List.mem_map] at member
    rcases member with ⟨version, inVersions, rfl⟩
    exact ⟨version, rfl, areVersions version inVersions⟩

/-- Tools whose numerals have the same numbers of digits, and platforms where they have not. -/
theorem find_isTaken_android :
    HasVersions (android ["30.0.3", "34.0.0"] ["9", "34"]) (join "a" "build-tools") [] ∧
      HasVersions (android ["30.0.3", "34.0.0"] ["9", "34"]) (join "a" "platforms") "android-" ∧
      ∃ tool platform,
        IsTaken (android ["30.0.3", "34.0.0"] ["9", "34"]) (join "a" "build-tools") [] tool ∧
        IsTaken (android ["30.0.3", "34.0.0"] ["9", "34"]) (join "a" "platforms") "android-"
          platform ∧
        (find (android ["30.0.3", "34.0.0"] ["9", "34"]) "a" "k").d8 =
          join (join (join (join "a" "build-tools") tool) "lib") "d8.jar" ∧
        (find (android ["30.0.3", "34.0.0"] ["9", "34"]) "a" "k").platform =
          join (join (join "a" "platforms") ("android-" ++ platform)) "android.jar" := by
  have tools : HasVersions (android ["30.0.3", "34.0.0"] ["9", "34"]) (join "a" "build-tools")
      [] :=
    hasVersions_of_all ["34.0.0", "30.0.3"] (by decide) (by decide)
      (by decide)
  have platforms : HasVersions (android ["30.0.3", "34.0.0"] ["9", "34"]) (join "a" "platforms")
      "android-" :=
    hasVersions_of_all ["34", "9"] (by decide) (by decide)
      (by decide)
  rcases find_isTaken "k" tools platforms with
    ⟨tool, platform, toolTaken, platformTaken, isD8, _, isPlatform⟩
  exact ⟨tools, platforms, tool, platform, toolTaken, platformTaken, isD8, isPlatform⟩

/-- The newest version need not be taken: 9.0.0 comes after 34.0.0. -/
theorem not_forall_isNewest_of_find :
    ¬∀ (tree : FileTree) (androidHome kotlinHome : Text),
      HasVersions tree (join androidHome "build-tools") [] →
      HasVersions tree (join androidHome "platforms") "android-" →
      ∃ tool, IsNewest tree (join androidHome "build-tools") [] tool ∧
        (find tree androidHome kotlinHome).d8 =
          join (join (join (join androidHome "build-tools") tool) "lib") "d8.jar" := by
  intro takesNewest
  have tools : HasVersions (android ["34.0.0", "9.0.0"] ["34"]) (join "a" "build-tools") [] :=
    hasVersions_of_all ["9.0.0", "34.0.0"] (by decide) (by decide)
      (by decide)
  have platforms : HasVersions (android ["34.0.0", "9.0.0"] ["34"]) (join "a" "platforms")
      "android-" :=
    hasVersions_of_all ["34"] (by decide) (by decide) (by decide)
  have names : subdirectories (android ["34.0.0", "9.0.0"] ["34"]) (join "a" "build-tools") =
      ["9.0.0", "34.0.0"] := by
    decide
  have isTwo {version : Text}
      (isThere : IsThere (android ["34.0.0", "9.0.0"] ["34"]) (join "a" "build-tools") [] version) :
      version = "9.0.0" ∨ version = "34.0.0" := by
    rw [IsThere, names, List.nil_append] at isThere
    exact List.mem_pair.1 isThere
  have isThere : ∀ version ∈ (["9.0.0", "34.0.0"] : List Text),
      IsThere (android ["34.0.0", "9.0.0"] ["34"]) (join "a" "build-tools") [] version := by
    intro version member
    rwa [IsThere, names, List.nil_append]
  rcases exists_isTaken tools with ⟨taken, isLatest, isTaken⟩
  rcases takesNewest _ "a" "k" tools platforms with ⟨tool, ⟨toolThere, isNewest⟩, isD8⟩
  rcases isTwo isTaken.isThere with rfl | rfl
  · rcases isTwo toolThere with rfl | rfl
    · have newer := isNewest "34.0.0" (isThere _ (by decide))
      revert newer
      decide
    · rw [find, isLatest] at isD8
      revert isD8
      decide
  · have before := isTaken.comesLast "9.0.0" (isThere _ (by decide)) (by decide)
    revert before
    decide

end CompiledViews.ToolPaths
