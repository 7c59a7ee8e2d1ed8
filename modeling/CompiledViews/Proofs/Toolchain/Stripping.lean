import CompiledViews.Proofs.Text.Removal
import CompiledViews.Toolchain.Scratch

/-!
# Taking the path of a directory out of a text

What tools print names files by their whole paths. The path of the scratch directory is taken out
of it wherever a scan from the left meets it, and that is meant to shorten the paths of files below
that directory. A path that only has the same names in its middle is damaged: there the directory
stands right behind a letter or a digit.
-/

namespace CompiledViews

namespace Text

variable {word text piece rest : Text} {pieces others : List Text}

/-- What a scan from the left makes of a text: the pieces before the places where it meets a word,
each of them the first one behind the place before, and what is left in the end. -/
inductive ScannedInto (word : Text) : Text → List Text → Prop where
  | last {piece : Text} (absent : ¬word <:+: piece) : ScannedInto word piece [piece]
  | met {piece rest : Text} {pieces : List Text}
      (isFirst : ∀ before after, piece ++ (word ++ rest) = before ++ (word ++ after) →
        piece.length ≤ before.length)
      (scanned : ScannedInto word rest pieces) :
      ScannedInto word (piece ++ (word ++ rest)) (piece :: pieces)

/-- The text with those occurrences of the word left in it that stand right behind a character of
some kind. -/
def withoutFree (isInner : Char → Bool) (word : Text) : List Text → Text
  | [] => []
  | [piece] => piece
  | piece :: next :: pieces =>
    piece ++ (if piece.getLast?.any isInner then word else []) ++
      withoutFree isInner word (next :: pieces)

theorem ScannedInto.ne_nil (scanned : ScannedInto word text pieces) : pieces ≠ [] := by
  cases scanned <;> simp

/-- A character in front of a text goes to its first piece, unless it begins the word. -/
theorem ScannedInto.cons {first : Text} {head : Char}
    (scanned : ScannedInto word text (first :: others)) (elsewhere : ¬word <+: head :: text) :
    ScannedInto word (head :: text) ((head :: first) :: others) := by
  cases scanned with
  | last absent =>
      apply ScannedInto.last
      intro occurs
      rcases List.infix_cons_iff.1 occurs with begins | later
      · exact elsewhere begins
      · exact absent later
  | met isFirst scanned =>
      rw [← List.cons_append]
      apply ScannedInto.met _ scanned
      intro before after split
      rcases before with _ | ⟨other, before⟩
      · exact absurd ⟨after, split.symm⟩ elsewhere
      · have shorter := isFirst before after (List.cons.inj split).2
        simpa using shorter

/-- The scan makes pieces of every text, and what it leaves out is the word between them. -/
theorem exists_scannedInto (nonempty : word ≠ []) (text : Text) :
    ∃ pieces, ScannedInto word text pieces ∧ removeAll word text = pieces.flatten := by
  -- the scan goes on behind an occurrence, so the induction is on how much is left of the text
  induction size : text.length using Nat.strong_induction_on generalizing text with
  | _ size ih =>
      subst size
      by_cases begins : word <+: text
      · rcases begins with ⟨rest, rfl⟩
        have isShorter : rest.length < (word ++ rest).length := by
          simpa using List.length_pos_iff.2 nonempty
        rcases ih rest.length isShorter rest rfl with ⟨pieces, scanned, isLeft⟩
        refine ⟨[] :: pieces, @ScannedInto.met word [] rest pieces ?_ scanned, ?_⟩
        · intro before after _
          exact Nat.zero_le _
        · rw [removeAll_append nonempty, isLeft]
          rfl
      · cases text with
        | nil => exact ⟨[[]], .last (by simpa using nonempty), rfl⟩
        | cons head text =>
            rcases ih text.length (Nat.lt_succ_self _) text rfl with ⟨pieces, scanned, isLeft⟩
            rcases List.exists_cons_of_ne_nil scanned.ne_nil with ⟨first, others, rfl⟩
            refine ⟨_, scanned.cons begins, ?_⟩
            rw [removeAll_cons begins, isLeft]
            rfl

theorem ScannedInto.unique (scanned : ScannedInto word text pieces)
    (other : ScannedInto word text others) : others = pieces := by
  induction scanned generalizing others with
  | last absent =>
      cases other with
      | last _ => rfl
      | @met piece rest _ _ _ => exact absurd ⟨piece, rest, List.append_assoc ..⟩ absent
  | @met piece rest pieces isFirst scanned ih =>
      generalize isText : piece ++ (word ++ rest) = text at other
      cases other with
      | last absent => exact absurd ⟨piece, rest, by simp [← isText]⟩ absent
      | @met otherPiece otherRest otherPieces isOtherFirst otherScanned =>
          have sameLength : piece.length = otherPiece.length :=
            le_antisymm (isFirst _ _ isText) (isOtherFirst _ _ isText.symm)
          rcases List.append_inj isText sameLength with ⟨rfl, isRest⟩
          rcases List.append_cancel_left isRest with rfl
          rw [ih otherScanned]

theorem ScannedInto.join_eq (scanned : ScannedInto word text pieces) : join word pieces = text := by
  induction scanned with
  | last absent => rfl
  | met isFirst scanned ih =>
      rcases List.exists_cons_of_ne_nil scanned.ne_nil with ⟨next, others, rfl⟩
      rw [join, ih, List.append_assoc]

theorem length_flatten_le_withoutFree (isInner : Char → Bool) (word : Text) (pieces : List Text) :
    pieces.flatten.length ≤ (withoutFree isInner word pieces).length := by
  induction pieces with
  | nil => simp
  | cons piece pieces ih =>
      cases pieces with
      | nil => simp [withoutFree]
      | cons next pieces =>
          rw [withoutFree, List.flatten_cons]
          simp only [List.length_append]
          omega

/-- Every occurrence that is left in the text makes it longer. -/
theorem withoutFree_eq_flatten_iff (isInner : Char → Bool) (nonempty : word ≠ []) :
    withoutFree isInner word pieces = pieces.flatten ↔
      ∀ piece ∈ pieces.dropLast, piece.getLast?.any isInner = false := by
  induction pieces with
  | nil => simp [withoutFree]
  | cons piece pieces ih =>
      cases pieces with
      | nil => simp [withoutFree]
      | cons next pieces =>
          rw [withoutFree, List.dropLast_cons_cons, List.forall_mem_cons, ← ih, List.flatten_cons]
          cases isKept : piece.getLast?.any isInner with
          | false => simp
          | true =>
              simp only [if_true, Bool.true_eq_false, false_and, iff_false]
              intro same
              have lengths := congrArg List.length same
              have others := length_flatten_le_withoutFree isInner word (next :: pieces)
              have positive := List.length_pos_iff.2 nonempty
              simp only [List.length_append] at lengths
              omega

end Text

namespace Toolchain

open Text

/-- The path of a directory with a slash at its end, as it stands before the name of a file. -/
def leadingPath (directory : Text) : Text :=
  if endsWith directory "/" then directory else directory ++ "/"

theorem leadingPath_ne_nil (directory : Text) : leadingPath directory ≠ [] := by
  intro isEmpty
  rw [leadingPath] at isEmpty
  split_ifs at isEmpty with isSlashed
  · rw [isEmpty] at isSlashed
    cases isSlashed
  · simp at isEmpty

/-- What is left of a text are the pieces that a scan from the left makes of it, and nothing stands
between them. These are the paths below the directory made shorter, with nothing else changed,
exactly if no piece before an occurrence ends in a letter or a digit, whatever counts as one: behind
an empty piece that is not the first one stands a slash. -/
theorem stripDirectory_eq_withoutFree_iff (directory text : Text) :
    ∃ pieces, ScannedInto (leadingPath directory) text pieces ∧
      (∀ others, ScannedInto (leadingPath directory) text others → others = pieces) ∧
      join (leadingPath directory) pieces = text ∧
      stripDirectory directory text = pieces.flatten ∧
      ∀ isInner : Char → Bool,
        stripDirectory directory text = withoutFree isInner (leadingPath directory) pieces ↔
          ∀ piece ∈ pieces.dropLast, piece.getLast?.any isInner = false := by
  have nonempty := leadingPath_ne_nil directory
  rcases exists_scannedInto nonempty text with ⟨pieces, scanned, isLeft⟩
  change stripDirectory directory text = pieces.flatten at isLeft
  refine ⟨pieces, scanned, ?_, scanned.join_eq, isLeft, ?_⟩
  · intro others otherScanned
    exact scanned.unique otherScanned
  · intro isInner
    rw [isLeft, eq_comm, withoutFree_eq_flatten_iff isInner nonempty]

/-- A path that has the names of the directory in its middle is scanned there too. -/
theorem scannedInto_home :
    ScannedInto (leadingPath "/tmp/s") "/home/u/tmp/s/x.jar" ["/home/u", "x.jar"] := by
  have notBefore : ∀ count < 7,
      ¬leadingPath "/tmp/s" <+: ("/home/u/tmp/s/x.jar" : Text).drop count := by
    decide
  have notBehind : ¬leadingPath "/tmp/s" <:+: ("x.jar" : Text) := by
    decide
  apply @ScannedInto.met (leadingPath "/tmp/s") "/home/u" "x.jar" _ _ (.last notBehind)
  intro before after split
  by_contra isShorter
  apply notBefore before.length (by simpa using isShorter)
  exact ⟨after, by rw [show ("/home/u/tmp/s/x.jar" : Text) = _ from split, List.drop_left]⟩

/-- The path of a directory is taken out of the middle of another path too. -/
theorem not_forall_stripDirectory_eq_withoutFree :
    ¬∀ directory text pieces, Path.isAbsolute directory = true → Path.names directory ≠ [] →
      ScannedInto (leadingPath directory) text pieces → stripDirectory directory text =
        withoutFree Char.isAlphanum (leadingPath directory) pieces := by
  intro shortens
  have same := shortens "/tmp/s" _ _ (by decide) (by decide) scannedInto_home
  revert same
  decide

end Toolchain

end CompiledViews
