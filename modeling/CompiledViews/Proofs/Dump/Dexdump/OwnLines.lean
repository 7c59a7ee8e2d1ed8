import CompiledViews.Proofs.Dump.Dexdump.Grammar
import CompiledViews.Proofs.Dump.Ranges
import CompiledViews.Proofs.Text.Leading

/-!
# Methods of a `dexdump` dump keep their own lines

The line that announces the code of a method opens a range, which ends where the next method is
announced or the section of a class opens or ends. If each range of a section has the mark of a line
number table below the code, then the methods that are read are those of the ranges, one for each,
and all that is known of a method comes from its range. Where a range lacks the mark, though, the
search for it goes on in the ranges below, and the methods there are lost.
-/

namespace CompiledViews.Dump.Dexdump

open Text Text.Form

/-- Whether a method is announced or the section of a class opens or ends on a line. -/
def isMarker (line : Text) : Bool := announcesCode line || endsClass line || opensClass line

/-- The line itself, if it announces the code of a method. -/
def announcement? (line : Text) : Option Text := if announcesCode line then some line else none

/-- Whether the mark of a line number table stands on one of the lines below an announcement that
follow the signature and the code. -/
def hasPositions : List Text → Bool
  | [] => false
  | _ :: rest => (rest.dropWhile fun line => !startsWith line " ").any marksPositions

/-- Every method that is announced has the mark of its line number table among its own lines. -/
def KeepsPositions (body : List Text) : Prop :=
  ∀ range ∈ ranges announcement? isMarker body, hasPositions range.2 = true

/-- The methods of a class are read from the ranges of its lines, one from each and in order, and
none of these lines ends a class. -/
def OwnsLines (className : Text) (body : List Text) (methods : List Method) : Prop :=
  (∀ line ∈ body, endsClass line = false) ∧
    List.Forall₂
      (fun range method => ∃ part : Excerpt, part.announcement = range.1 ∧
        part.below <+: range.2 ∧ part.Gives className method)
      (ranges announcement? isMarker body) methods

/-- A line that goes on with another character than the markers do after its leading blanks is none
of them. -/
theorem isMarker_eq_false {line : Text} {first : Char}
    (isFirst : (line.dropWhile isBlank).head? = some first)
    (differs : first ∉ (['i', 's', 'C'] : List Char)) : isMarker line = false := by
  simp only [List.mem_cons, List.not_mem_nil, or_false, not_or] at differs
  simp only [isMarker, announcesCode, endsClass, opensClass, Bool.or_eq_false_iff]
  exact ⟨⟨startsWith_trim_eq_false isFirst rfl differs.1,
    startsWith_trim_eq_false isFirst rfl differs.2.1⟩,
    startsWith_trim_eq_false isFirst rfl differs.2.2⟩

theorem isMarker_of_marksPositions {line : Text} (isMark : marksPositions line = true) :
    isMarker line = false :=
  isMarker_eq_false (head?_dropWhile_of_startsWith rfl isMark) (by decide)

theorem isMarker_of_positionLine {line : Text} (isEntry : positionLine.accepts line = true) :
    isMarker line = false := by
  obtain ⟨_, found⟩ := Option.isSome_iff_exists.1 isEntry
  obtain ⟨rest, begins⟩ := dropWhile_of_span_literal found
  have isFirst : (line.dropWhile isBlank).head? = some '0' := by
    rw [begins]
    rfl
  exact isMarker_eq_false isFirst (by decide)

theorem isMarker_of_entryOf {line : Text} (isEntry : (entryOf line).isSome = true) :
    isMarker line = false := by
  unfold entryOf at isEntry
  split at isEntry
  case h_1 address sourceLine found => exact isMarker_of_positionLine (by simp [accepts, found])
  case h_2 _ => cases isEntry

theorem announcement?_of_isMarker {line : Text} (noMarker : isMarker line = false) :
    announcement? line = none := by
  simp only [isMarker, Bool.or_eq_false_iff] at noMarker
  simp [announcement?, noMarker.1.1]

theorem endsClass_of_isMarker {line : Text} (noMarker : isMarker line = false) :
    endsClass line = false := by
  simp only [isMarker, Bool.or_eq_false_iff] at noMarker
  exact noMarker.1.2

variable {part : Excerpt} {className : Text} {method : Method} {rest : List Text}

/-- What stands before the mark of an excerpt is no place for the mark of a range. -/
theorem Excerpt.Gives.hasPositions_eq_false (gives : part.Gives className method)
    {front : List Text} (isFront : front <+: part.signature :: (part.code ++ part.gap)) :
    hasPositions front = false := by
  rcases front with _ | ⟨signature, front⟩
  · rfl
  · have inCode : ∀ line ∈ part.code, (!startsWith line " ") = true := by
      intro line member
      rw [gives.code line member, Bool.not_false]
    have afterCode : front.dropWhile (fun line => !startsWith line " ") ⊆ part.gap := by
      obtain ⟨later, equal⟩ := (List.cons_prefix_cons.1 isFront).2
      rcases List.append_eq_append_iff.1 equal with ⟨more, inside, -⟩ | ⟨inGap, rfl, isGap⟩
      · have all : ∀ line ∈ front, (!startsWith line " ") = true :=
          fun line member => inCode line (inside ▸ List.mem_append_left more member)
        rw [List.dropWhile_eq_nil_iff.2 all]
        exact List.nil_subset _
      · rw [List.dropWhile_append_of_pos inCode, isGap]
        exact List.Subset.trans (List.dropWhile_suffix _).subset (List.subset_append_left ..)
    rw [hasPositions, List.any_eq_false]
    intro line member
    simp [gives.gap line (afterCode member)]

/-- An excerpt whose range has the mark of a line number table lies within the range. -/
theorem Excerpt.Gives.isMarker_below (gives : part.Gives className method)
    (has : hasPositions ((part.below ++ rest).takeWhile fun line => !isMarker line) = true) :
    ∀ line ∈ part.below, isMarker line = false := by
  let front := part.signature :: (part.code ++ part.gap)
  have split : part.below = front ++ part.mark :: part.entries := by simp [front, Excerpt.below]
  -- a marker in front of the mark would end the range there, and the range would lack the mark
  have inFront : ∀ line ∈ front, (!isMarker line) = true := by
    by_contra someMarker
    have ends : (front ++ (part.mark :: part.entries ++ rest)).takeWhile
        (fun line => !isMarker line) = front.takeWhile fun line => !isMarker line := by
      rw [List.takeWhile_append, if_neg]
      intro whole
      have kept := (List.takeWhile_prefix _).eq_of_length whole
      exact someMarker (List.takeWhile_eq_self_iff.1 kept)
    rw [split, List.append_assoc, ends,
      gives.hasPositions_eq_false (List.takeWhile_prefix _)] at has
    cases has
  intro line member
  rw [split] at member
  rcases List.mem_append.1 member with before | behind
  · simpa using inFront line before
  · rcases List.mem_cons.1 behind with rfl | isEntry
    · exact isMarker_of_marksPositions gives.mark
    · exact isMarker_of_entryOf (gives.entries line isEntry)

/-- A class whose methods have their marks is read from the ranges of its lines. -/
theorem Body.ownsLines {body : List Text} {methods : List Method}
    (holds : Body className body methods) (keeps : KeepsPositions body) :
    OwnsLines className body methods := by
  induction holds with
  | done => exact ⟨by simp, .nil⟩
  | @other line rest methods noCode noEnd _ ih =>
      have noOpening : announcement? line = none := by simp [announcement?, noCode]
      rw [KeepsPositions, ranges_cons_of_none noOpening] at keeps
      rcases ih keeps with ⟨noEnds, own⟩
      rw [OwnsLines, ranges_cons_of_none noOpening]
      exact ⟨List.forall_mem_cons.2 ⟨noEnd, noEnds⟩, own⟩
  | @method part method rest methods gives _ _ ih =>
      have isOpening : announcement? part.announcement = some part.announcement := by
        simp [announcement?, gives.announces]
      rw [KeepsPositions, List.cons_append, ranges_cons_of_some isOpening,
        List.forall_mem_cons] at keeps
      -- no line of the excerpt opens a range, so the other ranges are those of the rest
      have noMarker := gives.isMarker_below keeps.1
      have noOpening : ∀ line ∈ part.below, announcement? line = none :=
        fun line member => announcement?_of_isMarker (noMarker line member)
      rw [ranges_append_of_none noOpening] at keeps
      rcases ih keeps.2 with ⟨noEnds, own⟩
      rw [OwnsLines, List.cons_append, ranges_cons_of_some isOpening,
        ranges_append_of_none noOpening]
      have noEnd : endsClass part.announcement = false :=
        startsWith_trim_eq_false (head?_dropWhile_of_startsWith rfl gives.announces) rfl (by decide)
      refine ⟨?_, .cons ⟨part, rfl, ?_, gives⟩ own⟩
      · refine List.forall_mem_cons.2 ⟨noEnd, List.forall_mem_append.2 ⟨?_, noEnds⟩⟩
        exact fun line member => endsClass_of_isMarker (noMarker line member)
      · rw [List.takeWhile_append_of_pos fun line member => by simp [noMarker line member]]
        exact List.prefix_append ..

/-- A dump that is read is read section by section. A class gets its methods from excerpts of its
section, and if all of them have their marks, each one from the lines between its announcement and
the next one or the end of the class. -/
theorem ownsLines_of_read {text : Text} {classes : List Class}
    (accepted : read text = .ok classes) :
    Sections (fun name body methods =>
        Body name body methods ∧ (KeepsPositions body → OwnsLines name body methods))
      (Text.lines text) classes :=
  (sections_of_read accepted).mono fun _ _ _ holds => ⟨holds, holds.ownsLines⟩

/-- Two methods of a class, the first one with an instruction and the source line of it. -/
def pairLines : List Text :=
  ["Class #0", " Class descriptor : 'LDuo;'", " insns size : 1", "|[0] Duo.f:()V",
    "|0000: return-void", " positions :", "  0x0000 line=3", " insns size : 1", "|[0] Duo.g:(I)V",
    " positions :", " source_file_idx : 0"]

def pairClasses : List Class :=
  [{ header := "class Duo"
     methods :=
       [{ header := "void Duo.f()", index := none, codeSize := some 2, isa := .dex
          instructions :=
            [{ Instruction.ofCode 0 "0000" "return-void" none with lineNumber := some 3 }]
          references := .empty },
        { header := "void Duo.g(int)", index := none, codeSize := some 2, isa := .dex
          instructions := [], references := .empty }] }]

theorem read_pairLines : read (unlines pairLines) = .ok pairClasses := by
  -- The kernel is slow at taking strings apart, so that is done before.
  unfold pairLines pairClasses
  repeat rewrite [String.toList_ofList]
  decide +kernel

theorem keepsPositions_pairLines : KeepsPositions ((pairLines.drop 2).dropLast) := by
  unfold KeepsPositions pairLines
  repeat rewrite [String.toList_ofList]
  decide

/-- Both methods have their marks, so each is read from its own lines. -/
theorem ownsLines_of_read_pairLines :
    read (unlines pairLines) = .ok pairClasses ∧
      KeepsPositions ((pairLines.drop 2).dropLast) ∧
      Sections (fun name body methods =>
          Body name body methods ∧ (KeepsPositions body → OwnsLines name body methods))
        (Text.lines (unlines pairLines)) pairClasses :=
  ⟨read_pairLines, keepsPositions_pairLines, ownsLines_of_read read_pairLines⟩

/-- The lines of a class with two methods, the first one without a line number table. -/
def lostBody : List Text :=
  [" insns size : 1", "|[0] A.f:()V", " insns size : 1", "|[0] A.g:()V", " positions :"]

def lostMethods : List Method :=
  [{ header := "void A.f()", index := none, codeSize := some 2, isa := .dex, instructions := []
     references := .empty }]

/-- The section of a class with the given lines. -/
def sectionOfA (body : List Text) : List Text :=
  "Class #0" :: " Class descriptor : 'LA;'" :: (body ++ ([" source_file_idx : 0"] : List Text))

/-- Without the condition on the marks a class may be read whose methods do not keep their lines:
the first method takes the mark of the second one, which is lost. -/
theorem not_forall_ownsLines : ¬∀ (body : List Text) (methods : List Method),
    (∀ line ∈ body, endsClass line = false) →
      read (unlines (sectionOfA body)) = .ok [⟨"class A", methods⟩] →
        OwnsLines "A" body methods := by
  intro all
  have own := all lostBody lostMethods (by decide +kernel) (by decide +kernel)
  exact absurd own.2.length_eq (by decide +kernel)

end CompiledViews.Dump.Dexdump
