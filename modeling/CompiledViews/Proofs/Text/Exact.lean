import CompiledViews.Proofs.Text.Occurrence
import Mathlib.Data.List.TakeWhile

/-!
# Reading what has been printed

Texts that are put together from parts are cut into these parts again. Where the parts tell where
each of them ends, there is one way to read them: a mark ends a part that does not hold its first
character, and a run of characters of a class ends at the first one that is none.
-/

namespace CompiledViews.Text

/-- A text is cut at the first occurrence of a mark, whose first character it lacks before that. -/
theorem splitOnce_append {first : Char} {mark left : Text} (absent : first ∉ left) (right : Text) :
    splitOnce (first :: mark) (left ++ (first :: mark ++ right)) = some (left, right) := by
  induction left with
  | nil =>
      have here : after? (first :: mark) (first :: (mark ++ right)) = some right :=
        after?_eq_some_iff.2 rfl
      rw [List.nil_append, List.cons_append, splitOnce, here]
  | cons head left ih =>
      rw [List.mem_cons, not_or] at absent
      have noMark : after? (first :: mark) (head :: (left ++ (first :: mark ++ right))) = none := by
        by_contra found
        obtain ⟨rest, isAfter⟩ := Option.ne_none_iff_exists'.1 found
        exact absent.1 (List.cons.inj (after?_eq_some_iff.1 isAfter)).1.symm
      rw [List.cons_append, splitOnce, noMark, ih absent.2]
      rfl

theorem splitOnce_eq_none {mark : Char} {text : Text} (absent : mark ∉ text) :
    splitOnce [mark] text = none := by
  by_contra found
  obtain ⟨⟨left, right⟩, isSplit⟩ := Option.ne_none_iff_exists'.1 found
  exact absent (by simp [splitOnce_eq isSplit])

theorem splitLast_eq_none {mark : Char} {text : Text} (absent : mark ∉ text) :
    splitLast mark text = none := by
  by_contra found
  obtain ⟨⟨left, right⟩, isSplit⟩ := Option.ne_none_iff_exists'.1 found
  exact absent (by simp [splitLast_eq isSplit])

/-- A text is cut at the last occurrence of a character, which it lacks behind that. -/
theorem splitLast_append {mark : Char} {right : Text} (absent : mark ∉ right) (left : Text) :
    splitLast mark (left ++ mark :: right) = some (left, right) := by
  induction left with
  | nil => simp [splitLast, splitLast_eq_none absent]
  | cons head left ih => rw [List.cons_append, splitLast, ih]

theorem exists_last_of_mem {mark : Char} {text : Text} (member : mark ∈ text) :
    ∃ left right, text = left ++ mark :: right ∧ mark ∉ right := by
  obtain ⟨front, back, isReverse, absent⟩ := List.eq_append_cons_of_mem (List.mem_reverse.2 member)
  refine ⟨back.reverse, front.reverse, ?_, by simpa using absent⟩
  rw [← List.reverse_reverse text, isReverse]
  simp

theorem afterLast_append {mark : Char} {right : Text} (absent : mark ∉ right) (left : Text) :
    afterLast mark (left ++ mark :: right) = right := by
  rw [afterLast, splitLast_append absent]

theorem dropRightWhile_concat {unwanted : Char → Bool} {last : Char}
    (isWanted : unwanted last = false) (text : Text) :
    dropRightWhile unwanted (text ++ [last]) = text ++ [last] := by
  induction text with
  | nil => simp [dropRightWhile, isWanted]
  | cons head text ih =>
      rw [List.cons_append, dropRightWhile, ih]
      cases text <;> rfl

/-- A separator is dropped where it stands behind a text that lacks it. -/
theorem dropRightWhile_append {separator : Char} {text : Text} (absent : separator ∉ text) :
    dropRightWhile (· == separator) (text ++ [separator]) = text := by
  induction text with
  | nil => simp [dropRightWhile]
  | cons head text ih =>
      rw [List.mem_cons, not_or] at absent
      rw [List.cons_append, dropRightWhile, ih absent.2]
      cases text with
      | nil => simp [Ne.symm absent.1]
      | cons next text => rfl

/-- A character at the end of a text that is not blank stays there when the text is trimmed. -/
theorem getLast?_trim {text : Text} {last : Char} (isLast : text.getLast? = some last)
    (noBlank : isBlank last = false) : (trim text).getLast? = some last := by
  obtain ⟨front, rfl⟩ := List.getLast?_eq_some_iff.1 isLast
  obtain ⟨left, isLeft⟩ : ∃ left, trimLeft (front ++ [last]) = left ++ [last] := by
    rw [trimLeft, List.dropWhile_append]
    split
    · exact ⟨[], by simp [noBlank]⟩
    · exact ⟨_, rfl⟩
  rw [trim, isLeft, trimRight, dropRightWhile_concat noBlank]
  simp

/-- Behind what is left of a text there are unwanted characters. -/
theorem exists_append_dropRightWhile (unwanted : Char → Bool) (text : Text) :
    ∃ right, text = dropRightWhile unwanted text ++ right ∧
      ∀ character ∈ right, unwanted character = true := by
  induction text with
  | nil => exact ⟨[], rfl, by simp⟩
  | cons head text ih =>
      obtain ⟨right, isSplit, unwantedRight⟩ := ih
      rw [dropRightWhile]
      split
      case h_1 none =>
        rw [none, List.nil_append] at isSplit
        split
        case isTrue isUnwanted =>
          exact ⟨head :: text, rfl,
            List.forall_mem_cons.2 ⟨isUnwanted, isSplit ▸ unwantedRight⟩⟩
        case isFalse _ => exact ⟨right, by rw [isSplit, List.singleton_append], unwantedRight⟩
      case h_2 kept _ => exact ⟨right, by rw [List.cons_append, ← isSplit], unwantedRight⟩

/-- Around what is left of a trimmed text there are blanks. -/
theorem exists_append_trim (text : Text) :
    ∃ left right, text = left ++ (trim text ++ right) ∧
      (∀ character ∈ left, isBlank character = true) ∧
      ∀ character ∈ right, isBlank character = true := by
  obtain ⟨right, isSplit, blankRight⟩ := exists_append_dropRightWhile isBlank (trimLeft text)
  refine ⟨text.takeWhile isBlank, right, ?_, fun character => List.mem_takeWhile_imp, blankRight⟩
  rw [trim, trimRight, ← isSplit, trimLeft, List.takeWhile_append_dropWhile]

/-- Of blanks and a text without any the text is left. -/
theorem trim_append {left text : Text} (blank : ∀ character ∈ left, isBlank character = true)
    (noBlank : ∀ character ∈ text, isBlank character = false) : trim (left ++ text) = text := by
  rw [trim, trimLeft, List.dropWhile_append_of_pos blank, trimRight]
  rcases text.eq_nil_or_concat' with rfl | ⟨front, last, rfl⟩
  · rfl
  · have isFirst : (front ++ [last]).dropWhile isBlank = front ++ [last] := by
      rw [List.dropWhile_eq_self_iff]
      intro nonempty
      simp [noBlank _ (List.getElem_mem nonempty)]
    rw [isFirst]
    exact dropRightWhile_concat (noBlank last (by simp)) front

theorem wordsFrom_append {word : Text} (noBlank : ∀ character ∈ word, isBlank character = false)
    (current rest : Text) :
    wordsFrom current (word ++ rest) = wordsFrom (word.reverse ++ current) rest := by
  induction word generalizing current with
  | nil => rfl
  | cons head word ih =>
      obtain ⟨isWanted, others⟩ := List.forall_mem_cons.1 noBlank
      rw [List.cons_append, wordsFrom, if_neg (by simp [isWanted]), ih others, List.reverse_cons,
        List.append_assoc]
      rfl

/-- The first word of a text ends at the first blank. -/
theorem head?_words {word : Text} (nonempty : word ≠ [])
    (noBlank : ∀ character ∈ word, isBlank character = false) {blank : Char}
    (ends : isBlank blank = true) (rest : Text) :
    (words (word ++ blank :: rest)).head? = some word := by
  rw [words, wordsFrom_append noBlank, List.append_nil, wordsFrom, if_pos ends,
    if_neg (by simpa using nonempty), List.reverse_reverse]
  rfl

/-- At least one character, and all of a class. -/
def IsRun (isMember : Char → Bool) (text : Text) : Prop :=
  text ≠ [] ∧ ∀ character ∈ text, isMember character = true

instance (isMember : Char → Bool) (text : Text) : Decidable (text.IsRun isMember) :=
  inferInstanceAs (Decidable (text ≠ [] ∧ ∀ character ∈ text, isMember character = true))

theorem IsRun.notMem {isMember : Char → Bool} {text : Text} (run : text.IsRun isMember)
    {character : Char} (isOutside : isMember character = false) : character ∉ text := by
  intro member
  rw [run.2 character member] at isOutside
  cases isOutside

/-- What follows a run of another class is no further character of that. -/
theorem IsRun.ends {isMember isOther : Char → Bool} {text : Text} (run : text.IsRun isMember)
    (disjoint : ∀ character, isMember character = true → isOther character = false)
    (rest : Text) : ∀ head ∈ (text ++ rest).head?, isOther head = false := by
  intro head isHead
  rw [List.head?_append_of_ne_nil _ run.1] at isHead
  exact disjoint head (run.2 head (List.mem_of_head? isHead))

theorem IsRun.exists_eq_spaces {text : Text} (run : text.IsRun (· == ' ')) :
    ∃ count, text = spaces (count + 1) := by
  have isSpaces : text = spaces text.length := by
    rw [spaces, List.eq_replicate_iff]
    exact ⟨rfl, fun character inText => beq_iff_eq.1 (run.2 character inText)⟩
  have positive : 0 < text.length := List.length_pos_iff.2 run.1
  refine ⟨text.length - 1, ?_⟩
  rwa [Nat.sub_add_cancel positive]

/-- Whether a text begins with a character that is not blank. -/
def isFlush (text : Text) : Bool := text.head?.any fun first => !isBlank first

theorem ne_nil_of_isFlush {text : Text} (flush : isFlush text = true) : text ≠ [] := by
  rintro rfl
  cases flush

theorem isBlank_of_isFlush {text : Text} (flush : isFlush text = true) (rest : Text) :
    ∀ head ∈ (text ++ rest).head?, isBlank head = false := by
  cases text with
  | nil => cases flush
  | cons first text =>
      rintro head ⟨⟩
      simpa [isFlush] using flush

theorem beforeLastBlank?_concat {text : Text} (nonempty : text ≠ []) {blank : Char}
    (ends : isBlank blank = true) : beforeLastBlank? (text ++ [blank]) = some text := by
  simp [beforeLastBlank?, ends, nonempty]

namespace Form

variable {α β : Type}

/-- A mark is not found in front of its first occurrence. -/
theorem literal_eq_nil_of_first {mark front left right : Text}
    (isFirst : ¬mark <:+: front ++ mark.dropLast) (isEnd : left <:+ front) (nonempty : left ≠ []) :
    literal mark (left ++ (mark ++ right)) = [] := by
  rw [literal]
  split
  case h_1 rest found =>
    have begins : mark <+: left ++ (mark ++ right) := ⟨rest, (after?_eq_some_iff.1 found).symm⟩
    have sameFront : left ++ mark.dropLast <+: left ++ (mark ++ right) :=
      (List.prefix_append_right_inj left).2 ((List.dropLast_prefix mark).trans
        (List.prefix_append ..))
    have isShort : mark.length ≤ (left ++ mark.dropLast).length := by
      have positive := List.length_pos_iff.2 nonempty
      rw [List.length_append, List.length_dropLast]
      omega
    have inFront := (List.prefix_of_prefix_length_le begins sameFront isShort).isInfix
    obtain ⟨earlier, rfl⟩ := isEnd
    exact absurd (inFront.trans ⟨earlier, [], by simp⟩) isFirst
  case h_2 _ => rfl

theorem literal_eq_nil {first : Char} {expected text : Text} (differs : text.head? ≠ some first) :
    literal (first :: expected) text = [] := by
  rw [literal]
  split
  case h_1 rest found => simp [after?_eq_some_iff.1 found] at differs
  case h_2 _ => rfl

theorem eq_nil_of_mem_atEnd {text rest : Text} (member : ((), rest) ∈ atEnd text) : text = [] := by
  cases text with
  | nil => rfl
  | cons head text => cases member

theorem of_mem_exactly {isMember : Char → Bool} {count : Nat} {text taken rest : Text}
    (member : (taken, rest) ∈ exactly isMember count text) :
    taken.length = count ∧ ∀ character ∈ taken, isMember character = true := by
  induction count generalizing text taken rest with
  | zero =>
      obtain ⟨rfl, rfl⟩ : taken = [] ∧ rest = text := by simpa [exactly, nothing] using member
      simp
  | succ count ih =>
      obtain ⟨⟨first, left⟩, inOne, later⟩ := List.mem_flatMap.1 member
      obtain ⟨⟨others, last⟩, inRest, equal⟩ := List.mem_flatMap.1 later
      obtain ⟨rfl, rfl⟩ : taken = first :: others ∧ rest = last := by simpa [nothing] using equal
      obtain ⟨isLong, members⟩ := ih inRest
      exact ⟨by simp [isLong], List.forall_mem_cons.2 ⟨(mem_one inOne).2, members⟩⟩

theorem of_mem_span {isMember : Char → Bool} {text taken rest : Text}
    (member : (taken, rest) ∈ span isMember text) :
    ∀ character ∈ taken, isMember character = true := by
  rw [span, List.span_eq_takeWhile_dropWhile, List.mem_singleton] at member
  rw [(Prod.mk.inj member).1]
  intro character inTaken
  exact List.mem_takeWhile_imp inTaken

theorem isRun_of_mem_span1 {isMember : Char → Bool} {text taken rest : Text}
    (member : (taken, rest) ∈ span1 isMember text) : taken.IsRun isMember := by
  unfold span1 at member
  split at member
  case isTrue _ => cases member
  case isFalse nonempty =>
    refine ⟨?_, of_mem_span member⟩
    rw [List.mem_singleton, List.span_eq_takeWhile_dropWhile] at member
    rw [(Prod.mk.inj member).1]
    simpa using nonempty

/-- The reading of a text that a form prefers takes a value and leaves the rest. -/
def Prefers (form : Form α) (text : Text) (value : α) (rest : Text) : Prop :=
  (form text).head? = some (value, rest)

namespace Prefers

variable {form : Form α} {text rest : Text} {value : α}

theorem first? (prefers : Prefers form text value rest) : form.first? text = some value := by
  rw [Form.first?, show (form text).head? = _ from prefers]
  rfl

theorem pure (value : α) (text : Text) : Prefers (pure value) text value text := rfl

theorem atEnd : Prefers atEnd [] () [] := rfl

/-- Readings after which nothing can be read are given up for the next one. -/
theorem bind_of_skipped {next : α → Form β} {result : β} {left : Text}
    {skipped others : List (α × Text)} (readings : form text = skipped ++ (value, rest) :: others)
    (fails : ∀ reading ∈ skipped, next reading.1 reading.2 = [])
    (second : Prefers (next value) rest result left) :
    Prefers (form >>= next) text result left := by
  have none : (skipped.flatMap fun reading => next reading.1 reading.2) = [] :=
    List.flatMap_eq_nil_iff.2 fails
  have bound : (form >>= next) text = next value rest ++
      others.flatMap fun reading => next reading.1 reading.2 := by
    simp only [Bind.bind, andThen, readings, List.flatMap_append, none, List.flatMap_cons,
      List.nil_append]
  rw [Prefers, bound, List.head?_append, show (next value rest).head? = _ from second]
  rfl

/-- What follows the preferred reading of a form is read next, if it can be. -/
theorem bind {next : α → Form β} {result : β} {left : Text} (first : Prefers form text value rest)
    (second : Prefers (next value) rest result left) :
    Prefers (form >>= next) text result left := by
  obtain ⟨others, readings⟩ := List.head?_eq_some_iff.1 first
  have noSkipped : form text = [] ++ (value, rest) :: others := readings
  exact bind_of_skipped noSkipped (by simp) second

theorem one {isMember : Char → Bool} {first : Char} (wanted : isMember first = true)
    (rest : Text) : Prefers (one isMember) (first :: rest) first rest := by
  rw [Prefers, Form.one, if_pos wanted]
  rfl

theorem given (value : α) (text : Text) : Prefers (given (some value)) text value text := rfl

/-- A form is read at the first place where it can be. -/
theorem anywhere {front : Text} (prefers : Prefers form text value rest)
    (notBefore : ∀ left, left <:+ front → left ≠ [] → form (left ++ text) = []) :
    Prefers (anywhere form) (front ++ text) value rest := by
  induction front with
  | nil =>
      obtain ⟨others, readings⟩ := List.head?_eq_some_iff.1 prefers
      cases text <;> simp [Prefers, Form.anywhere, readings]
  | cons head front ih =>
      have none := notBefore (head :: front) (List.suffix_refl _) (List.cons_ne_nil _ _)
      rw [List.cons_append] at none
      rw [Prefers, List.cons_append, Form.anywhere, none, List.nil_append]
      exact ih fun left isEnd => notBefore left (isEnd.trans (List.suffix_cons ..))

theorem either_left (other : Form α) (prefers : Prefers form text value rest) :
    Prefers (form.either other) text value rest := by
  rw [Prefers, either, List.head?_append, show (form text).head? = _ from prefers]
  rfl

theorem either_right {other : Form α} (none : other text = [])
    (prefers : Prefers form text value rest) : Prefers (other.either form) text value rest := by
  rw [Prefers, either, none]
  exact prefers

theorem literal (expected rest : Text) : Prefers (literal expected) (expected ++ rest) () rest := by
  have found : after? expected (expected ++ rest) = some rest := after?_eq_some_iff.2 rfl
  rw [Prefers, Form.literal, found]
  rfl

theorem literal_self (expected : Text) : Prefers (Form.literal expected) expected () [] := by
  have whole := literal expected []
  rwa [List.append_nil] at whole

/-- The text that a reading covers is what stands before the rest. -/
theorem covering {front : Text} (prefers : Prefers form (front ++ rest) value rest) :
    Prefers form.covering (front ++ rest) (front, value) rest := by
  rw [Prefers, Form.covering, List.head?_map, show (form (front ++ rest)).head? = _ from prefers]
  simp

section isMember

variable {isMember : Char → Bool} {left right : Text}

/-- A run ends where a character comes that does not belong to it. -/
theorem span (members : ∀ character ∈ left, isMember character = true)
    (ends : ∀ head ∈ right.head?, isMember head = false) :
    Prefers (span isMember) (left ++ right) left right := by
  have taken : (left ++ right).takeWhile isMember = left := by
    rw [takeWhile_append_of_head ends, List.takeWhile_eq_self_iff.2 members]
  have whole := List.takeWhile_append_dropWhile (p := isMember) (l := left ++ right)
  rw [taken] at whole
  rw [Prefers, Form.span, List.span_eq_takeWhile_dropWhile, taken, List.append_cancel_left whole]
  rfl

theorem span1 (nonempty : left ≠ []) (members : ∀ character ∈ left, isMember character = true)
    (ends : ∀ head ∈ right.head?, isMember head = false) :
    Prefers (span1 isMember) (left ++ right) left right := by
  have taken : (left ++ right).takeWhile isMember = left := by
    rw [takeWhile_append_of_head ends, List.takeWhile_eq_self_iff.2 members]
  rw [Prefers, Form.span1, taken, if_neg (by simpa using nonempty)]
  exact span members ends

theorem anything {text : Text} (single : text.SingleLine) : Prefers anything text text [] := by
  have whole : Prefers Form.anything (text ++ []) text [] :=
    span (anyInLine_of_mem single) (by simp)
  rwa [List.append_nil] at whole

theorem something {text : Text} (nonempty : text ≠ []) (single : text.SingleLine) :
    Prefers something text text [] := by
  have whole : Prefers Form.something (text ++ []) text [] :=
    span1 nonempty (anyInLine_of_mem single) (by simp)
  rwa [List.append_nil] at whole

theorem run (members : ∀ character ∈ left, isMember character = true)
    (ends : ∀ head ∈ right.head?, isMember head = false) :
    Prefers (run isMember) (left ++ right) left right := by
  induction left with
  | nil =>
      cases right with
      | nil => rfl
      | cons head right =>
          rw [Prefers, List.nil_append, Form.run, if_neg (ne_true_of_eq_false (ends head rfl))]
          rfl
  | cons head left ih =>
      obtain ⟨isHere, others⟩ := List.forall_mem_cons.1 members
      have readOthers : (Form.run isMember (left ++ right)).head? = some (left, right) := ih others
      rw [Prefers, List.cons_append, Form.run, if_pos isHere, List.head?_append, List.head?_map,
        readOthers]
      rfl

/-- A run that may give back characters does not, as long as what follows can be read. -/
theorem run1 (nonempty : left ≠ []) (members : ∀ character ∈ left, isMember character = true)
    (ends : ∀ head ∈ right.head?, isMember head = false) :
    Prefers (run1 isMember) (left ++ right) left right := by
  obtain ⟨first, others, rfl⟩ := List.exists_cons_of_ne_nil nonempty
  obtain ⟨isHere, members⟩ := List.forall_mem_cons.1 members
  exact (Prefers.one isHere _).bind ((run members ends).bind (.pure (first :: others) right))

theorem exactly (members : ∀ character ∈ left, isMember character = true) (right : Text) :
    Prefers (exactly isMember left.length) (left ++ right) left right := by
  induction left with
  | nil => rfl
  | cons first left ih =>
      obtain ⟨isHere, others⟩ := List.forall_mem_cons.1 members
      exact (Prefers.one isHere _).bind ((ih others).bind (.pure (first :: left) right))

/-- Where no mark begins within the last one or behind it, no reading goes further. -/
theorem eq_nil_of_isLast {first : Char} {mark : Text} {later : List (Text × Text)}
    (isLast : ¬first :: mark <:+: mark ++ right)
    (isLater : ∀ reading ∈ later, ∃ taken, mark ++ right = taken ++ (first :: mark ++ reading.2)) :
    later = [] := by
  rw [List.eq_nil_iff_forall_not_mem]
  intro reading member
  obtain ⟨taken, split⟩ := isLater reading member
  exact isLast ⟨taken, reading.2, by rw [split, List.append_assoc]⟩

/-- A mark is preferred where it occurs last. -/
theorem upTo {first : Char} {mark : Text} (members : ∀ character ∈ left, isMember character = true)
    (isLast : ¬first :: mark <:+: mark ++ right) :
    Prefers (upTo isMember (first :: mark)) (left ++ (first :: mark ++ right)) left right := by
  obtain ⟨later, shorter, readings, isLater⟩ := exists_upTo_eq members right
  rw [Prefers, readings, eq_nil_of_isLast isLast isLater]
  rfl

theorem somethingUpTo {first : Char} {mark : Text} (nonempty : left ≠ []) (single : left.SingleLine)
    (isLast : ¬first :: mark <:+: mark ++ right) :
    Prefers (somethingUpTo (first :: mark)) (left ++ (first :: mark ++ right)) left right := by
  rcases exists_somethingUpTo_eq first mark nonempty single right with
    ⟨later, shorter, readings, isLater⟩
  rw [Prefers, readings, eq_nil_of_isLast isLast isLater]
  rfl

end isMember

end Prefers

end Form

end CompiledViews.Text
