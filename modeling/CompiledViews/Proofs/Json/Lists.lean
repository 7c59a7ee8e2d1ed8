import CompiledViews.Proofs.Json.Grammar

/-!
# Lists that are read

The items of a list are read one after the other, whatever blanks stand around them: each of them
is found at its place, and taken into the state that the ones before it left.
-/

namespace CompiledViews.Json

variable {σ : Type} {next : Bool → Text → Except ReadError (Text ⊕ Text)} {close : Char}
  {item : σ → Text → Except ReadError (σ × Text)} {state final : σ} {limit : Nat}
  {text body before after place rest : Text} {texts : List Text}

section blanks

theorem isJsonBlank_of_mem {character : Char} (isBlank : character ∈ [' ', '\n', '\r', '\t']) :
    isJsonBlank character = true := by
  simp only [List.mem_cons, List.not_mem_nil, or_false] at isBlank
  rcases isBlank with rfl | rfl | rfl | rfl <;> rfl

/-- Blanks are passed over up to a character that is none. -/
theorem skipBlanks_append (areBlanks : AreBlanks before) (text : Text) :
    skipBlanks (before ++ text) = skipBlanks text :=
  List.dropWhile_append_of_pos fun _ member => isJsonBlank_of_mem (areBlanks member)

theorem skipBlanks_cons {first : Char} (noBlank : isJsonBlank first = false) (rest : Text) :
    skipBlanks (first :: rest) = first :: rest :=
  List.dropWhile_cons_of_neg (by simp [noBlank])

theorem Follows.blanks (areBlanks : AreBlanks before) (follows : Follows rest) :
    Follows (before ++ rest) := by
  cases before with
  | nil => exact follows
  | cons first before =>
      intro character isFirst
      have isBlank := areBlanks (List.mem_cons_self (a := first) (l := before))
      cases isFirst
      exact (List.sublist_append_left _ [',', ']', '\x7d']).subset isBlank

end blanks

section items

/-- How the places of a list are found: at its end, and behind a comma. -/
structure Separates (next : Bool → Text → Except ReadError (Text ⊕ Text)) (close : Char) :
    Prop where
  isClosing : close = ']' ∨ close = '\x7d'
  ends : ∀ {first before}, AreBlanks before → ∀ rest,
    next first (before ++ close :: rest) = .ok (.inr rest)
  goesOn : ∀ {before text place}, AreBlanks before → next true text = .ok (.inl place) →
    next false (before ++ ',' :: text) = .ok (.inl place)

/-- The place of an item that has a text. -/
def IsPlace (next : Bool → Text → Except ReadError (Text ⊕ Text)) (text place : Text) : Prop :=
  ∀ {before}, AreBlanks before → ∀ rest,
    next true (before ++ (text ++ rest)) = .ok (.inl (place ++ rest))

/-- How items are taken into a state, one after the other. -/
inductive TakesAll (next : Bool → Text → Except ReadError (Text ⊕ Text))
    (item : σ → Text → Except ReadError (σ × Text)) : σ → List Text → σ → Prop
  | nil {state : σ} : TakesAll next item state [] state
  | cons {state later final : σ} {text place : Text} {texts : List Text} :
      IsPlace next text place →
      (∀ rest, Follows rest → item state (place ++ rest) = .ok (later, rest)) →
      TakesAll next item later texts final → TakesAll next item state (text :: texts) final

/-- A list begins with the place of its first item. -/
theorem exists_place_of_listed (listed : Listed texts body) (some : texts ≠ [])
    (takesAll : TakesAll next item state texts final) (rest : Text) :
    ∃ place, next true (body ++ rest) = .ok (.inl place) := by
  cases listed with
  | nil _ => exact absurd rfl some
  | single areBefore areAfter =>
      cases takesAll with
      | cons isPlace _ _ =>
          rw [List.append_assoc, List.append_assoc]
          exact ⟨_, isPlace areBefore _⟩
  | cons areBefore areAfter _ _ =>
      cases takesAll with
      | cons isPlace _ _ =>
          rw [List.append_assoc, List.append_assoc]
          exact ⟨_, isPlace areBefore _⟩

theorem readItems_of_inl {first : Bool} {later : σ} (isFound : next first text = .ok (.inl place))
    (isTaken : item state place = .ok (later, rest)) :
    readItems next item (limit + 1) first state text =
      readItems next item limit false later rest := by
  rw [readItems]
  simp only [isFound, isTaken, bind, Except.bind]

theorem readItems_of_inr {first : Bool} (isEnd : next first text = .ok (.inr rest)) :
    readItems next item (limit + 1) first state text = .ok (state, rest) := by
  rw [readItems, isEnd]
  rfl

/-- Behind a comma a list goes on as it begins. -/
theorem readItems_comma (separates : Separates next close) (areBlanks : AreBlanks before)
    (isFound : next true text = .ok (.inl place)) :
    readItems next item limit false state (before ++ ',' :: text) =
      readItems next item limit true state text := by
  cases limit with
  | zero => rfl
  | succ limit => rw [readItems, readItems, separates.goesOn areBlanks isFound, isFound]

/-- The items of a list are taken into the state in the order of the list. -/
theorem readItems_of_listed (separates : Separates next close) (listed : Listed texts body)
    (takesAll : TakesAll next item state texts final) (inLimit : texts.length < limit)
    (rest : Text) :
    readItems next item limit true state (body ++ close :: rest) = .ok (final, rest) := by
  have closes : Follows (close :: rest) := by
    intro character isFirst
    cases isFirst
    rcases separates.isClosing with rfl | rfl <;> decide
  induction listed generalizing state limit with
  | nil areBlanks =>
      cases takesAll
      rcases limit with _ | limit
      · cases inLimit
      · exact readItems_of_inr (separates.ends areBlanks rest)
  | single areBefore areAfter =>
      cases takesAll with
      | cons isPlace isTaken others =>
          cases others
          rcases limit with _ | _ | limit
          · cases inLimit
          · exact absurd inLimit (by simp)
          · rw [List.append_assoc, List.append_assoc,
              readItems_of_inl (isPlace areBefore _) (isTaken _ (closes.blanks areAfter))]
            exact readItems_of_inr (separates.ends areAfter rest)
  | @cons before text after body texts areBefore areAfter some listed ih =>
      cases takesAll with
      | cons isPlace isTaken others =>
          rcases limit with _ | limit
          · cases inLimit
          · have follows : Follows (after ++ ',' :: (body ++ close :: rest)) := by
              apply Follows.blanks areAfter
              intro character isFirst
              cases isFirst
              decide
            rcases exists_place_of_listed listed some others (close :: rest) with ⟨place, isFound⟩
            simp only [List.append_assoc, List.cons_append]
            rw [readItems_of_inl (isPlace areBefore _) (isTaken _ follows),
              readItems_comma separates areAfter isFound]
            exact ih others (by simpa using inLimit)

/-- There are no more items in a list than it has characters, with its closing bracket. -/
theorem length_lt_of_listed (listed : Listed texts body) (close : Char) (rest : Text) :
    texts.length < (body ++ close :: rest).length + 1 := by
  simp only [List.length_append, List.length_cons]
  suffices texts.length ≤ body.length + 1 by omega
  induction listed with
  | nil _ => simp
  | single _ _ => simp
  | cons _ _ _ _ ih =>
      simp only [List.length_cons, List.length_append]
      omega

/-- An item is part of its list. -/
theorem length_le_of_mem_listed (listed : Listed texts body) (member : text ∈ texts) :
    text.length ≤ body.length := by
  induction listed with
  | nil _ => cases member
  | single _ _ =>
      rw [List.mem_singleton] at member
      rw [member]
      simp only [List.length_append]
      omega
  | cons _ _ _ _ ih =>
      simp only [List.length_cons, List.length_append]
      rcases List.mem_cons.1 member with rfl | later
      · omega
      · have shorter := ih later
        omega

end items

section places

theorem skipBlanks_comma (areBlanks : AreBlanks before) (text : Text) :
    skipBlanks (before ++ ',' :: text) = ',' :: text := by
  rw [skipBlanks_append areBlanks, skipBlanks_cons rfl]

theorem nextElement_eq_inl_iff :
    nextElement true text = .ok (.inl place) ↔
      ∃ first rest, skipBlanks text = first :: rest ∧ first ≠ ']' ∧ place = first :: rest := by
  rw [nextElement]
  constructor
  · intro isFound
    split at isFound
    case h_1 => cases isFound
    case h_2 => cases isFound
    case h_3 first rest noEnd isText =>
      cases isFound
      refine ⟨first, rest, isText, ?_, rfl⟩
      exact noEnd
  · rintro ⟨first, rest, isText, noEnd, rfl⟩
    rw [isText]
    split
    case h_1 isEmpty => cases isEmpty
    case h_2 isEnd => exact absurd (List.cons.inj isEnd).1 noEnd
    case h_3 same =>
      rw [← same]
      rfl

theorem nextElement_separates : Separates nextElement ']' where
  isClosing := .inl rfl
  ends := by
    intro first before areBlanks rest
    rw [nextElement, skipBlanks_append areBlanks, skipBlanks_cons rfl]
    rfl
  goesOn := by
    intro before text place areBlanks isFound
    rcases nextElement_eq_inl_iff.1 isFound with ⟨first, rest, isText, noEnd, rfl⟩
    rw [nextElement, skipBlanks_comma areBlanks]
    simp only [Bool.false_eq_true, if_false]
    split
    case h_1 isEmpty => cases isEmpty
    case h_2 isEnd => cases isEnd
    case h_3 isComma =>
      cases isComma
      rw [if_pos rfl, isText]
      split
      case h_1 isEmpty => cases isEmpty
      case h_2 isEnd => exact absurd (List.cons.inj isEnd).1 noEnd
      case h_3 => rfl

/-- An element begins where its text does. -/
theorem isPlace_element {first : Char} (noBlank : isJsonBlank first = false) (noEnd : first ≠ ']') :
    IsPlace nextElement (first :: text) (first :: text) := by
  intro before areBlanks rest
  refine nextElement_eq_inl_iff.2 ⟨first, text ++ rest, ?_, noEnd, rfl⟩
  rw [skipBlanks_append areBlanks, List.cons_append, skipBlanks_cons noBlank]

theorem nextMember_eq_inl_iff :
    nextMember true text = .ok (.inl place) ↔ skipBlanks text = '"' :: place := by
  rw [nextMember]
  constructor
  · intro isFound
    split at isFound
    case h_3 isText =>
      cases isFound
      exact isText
    all_goals cases isFound
  · intro isText
    rw [isText]
    rfl

theorem nextMember_separates : Separates nextMember '\x7d' where
  isClosing := .inr rfl
  ends := by
    intro first before areBlanks rest
    rw [nextMember, skipBlanks_append areBlanks, skipBlanks_cons rfl]
    rfl
  goesOn := by
    intro before text place areBlanks isFound
    rw [nextMember_eq_inl_iff] at isFound
    rw [nextMember, skipBlanks_comma areBlanks]
    simp only [Bool.false_eq_true, if_false, isFound]

/-- A member is read from behind the quote that its text begins with. -/
theorem isPlace_member (place : Text) : IsPlace nextMember ('"' :: place) place := by
  intro before areBlanks rest
  rw [nextMember_eq_inl_iff, skipBlanks_append areBlanks]
  exact skipBlanks_cons rfl _

end places

section listed

/-- The elements of an array are taken into the state in their order. -/
theorem readElements_of_listed (listed : Listed texts body)
    (takesAll : TakesAll nextElement item state texts final) (rest : Text) :
    readElements item ((body ++ ']' :: rest).length + 1) true state (body ++ ']' :: rest) =
      .ok (final, rest) :=
  readItems_of_listed nextElement_separates listed takesAll (length_lt_of_listed listed ']' rest)
    rest

/-- The members of an object are taken into the state in their order. -/
theorem readMembers_of_listed (listed : Listed texts body)
    (takesAll : TakesAll nextMember item state texts final) (rest : Text) :
    readMembers item ((body ++ '\x7d' :: rest).length + 1) true state (body ++ '\x7d' :: rest) =
      .ok (final, rest) :=
  readItems_of_listed nextMember_separates listed takesAll (length_lt_of_listed listed '\x7d' rest)
    rest

end listed

end CompiledViews.Json
