import CompiledViews.Proofs.Json.Lists
import CompiledViews.Proofs.Json.Numbers
import CompiledViews.Proofs.Json.Strings

/-!
# Values that are skipped

A value of any kind is skipped up to what follows it, however deep its arrays and objects are.
-/

namespace CompiledViews.Json

open Text

variable {text before rest spelled value : Text} {first : Char} {depth : Nat}

section scalars

/-- The first character of a number. -/
theorem exists_first_of_isNumber (isNumber : IsNumber text) :
    ∃ first rest, text = first :: rest ∧ (first = '-' ∨ first.isDigit = true) := by
  rcases isNumber with ⟨sign, isSign, whole, fraction, exponent, isDigits, _, _, _, rfl⟩
  rcases List.mem_pair.1 isSign with rfl | rfl
  · rcases List.exists_cons_of_ne_nil isDigits.1 with ⟨first, others, rfl⟩
    exact ⟨first, _, rfl, .inr (isDigits.2 first List.mem_cons_self)⟩
  · exact ⟨'-', _, rfl, .inl rfl⟩

/-- What begins like a number is neither blank nor of another kind. -/
theorem other_than_of_begins {other : Char} (begins : first = '-' ∨ first.isDigit = true)
    (noSign : other ≠ '-') (noDigit : other.isDigit = false) : first ≠ other := by
  rintro rfl
  rcases begins with isSign | isDigit
  · exact noSign isSign
  · rw [noDigit] at isDigit
    cases isDigit

theorem noBlank_of_begins (begins : first = '-' ∨ first.isDigit = true) :
    isJsonBlank first = false := by
  simp only [isJsonBlank, Bool.or_eq_false_iff, beq_eq_false_iff_ne, ne_eq]
  exact ⟨⟨⟨other_than_of_begins begins (by decide) (by decide),
    other_than_of_begins begins (by decide) (by decide)⟩,
    other_than_of_begins begins (by decide) (by decide)⟩,
    other_than_of_begins begins (by decide) (by decide)⟩

theorem skipScalar_number (begins : first = '-' ∨ first.isDigit = true) (rest : Text) :
    skipScalar (first :: rest) = skipNumber (first :: rest) := by
  rw [skipScalar, if_pos begins]
  all_goals exact other_than_of_begins begins (by decide) (by decide)

/-- The digits of a whole number are read as that number. -/
theorem readScalar_ofNat {number : Nat} (isExact : number < exactLimit)
    (areBlanks : AreBlanks before) (follows : Follows rest) :
    readScalar (skipBlanks (before ++ (ofNat number ++ rest))) = .ok (natural number, rest) := by
  have isDigits := isDigits_ofNat number
  have isRead := readMagnitude_ofNat isExact follows
  rcases List.exists_cons_of_ne_nil isDigits.1 with ⟨first, others, isText⟩
  rw [isText] at isDigits isRead ⊢
  have begins : first = '-' ∨ first.isDigit = true := .inr (isDigits.2 first List.mem_cons_self)
  rw [List.cons_append] at isRead ⊢
  rw [skipBlanks_append areBlanks, skipBlanks_cons (noBlank_of_begins begins), readScalar,
    if_pos begins, readNumber]
  · exact isRead
  · intro others isSign
    rw [(List.cons.inj isSign).1] at isDigits
    cases isDigits.2 '-' List.mem_cons_self
  all_goals exact other_than_of_begins begins (by decide) (by decide)

theorem skipNested_scalar (areBlanks : AreBlanks before) (noBlank : isJsonBlank first = false)
    (noArray : first ≠ '[') (noObject : first ≠ '\x7b') (rest : Text) :
    skipNested depth (before ++ first :: rest) = skipScalar (first :: rest) := by
  have isText : skipBlanks (before ++ first :: rest) = first :: rest := by
    rw [skipBlanks_append areBlanks, skipBlanks_cons noBlank]
  cases depth with
  | zero => rw [skipNested, isText]
  | succ depth =>
      rw [skipNested, isText]
      split
      case h_1 isArray => exact absurd (List.cons.inj isArray).1 noArray
      case h_2 isObject => exact absurd (List.cons.inj isObject).1 noObject
      case h_3 same => rfl

end scalars

section lists

/-- How a value that is skipped is passed over, as an item of a list. -/
def skipItem (skip : Text → Except ReadError Text) (_ : Unit) (place : Text) :
    Except ReadError (Unit × Text) :=
  (skip place).map ((), ·)

/-- The text after a member, from behind the opening quote of its key. -/
def skipMember (skip : Text → Except ReadError Text) (place : Text) : Except ReadError Text := do
  skip (← readColon (← skipStringBody place))

theorem skipItem_eq (skip : Text → Except ReadError Text) :
    (fun (_ : Unit) place => do pure ((), ← skip place)) = skipItem skip := by
  funext _ place
  rw [skipItem]
  cases skip place <;> rfl

theorem skipNested_array (areBlanks : AreBlanks before) (text : Text) :
    skipNested (depth + 1) (before ++ '[' :: text) =
      (readElements (skipItem (skipNested depth)) (text.length + 1) true () text).map (·.2) := by
  rw [skipNested, skipBlanks_append areBlanks, skipBlanks_cons rfl, ← skipItem_eq]
  simp only
  cases readElements (fun (_ : Unit) place => do pure ((), ← skipNested depth place))
    (text.length + 1) true () text <;> rfl

theorem skipNested_object (areBlanks : AreBlanks before) (text : Text) :
    skipNested (depth + 1) (before ++ '\x7b' :: text) =
      (readMembers (skipItem (skipMember (skipNested depth))) (text.length + 1) true () text).map
        (·.2) := by
  have same : (fun (_ : Unit) place => do
      let afterKey ← skipStringBody place
      pure ((), ← skipNested depth (← readColon afterKey))) =
        skipItem (skipMember (skipNested depth)) := by
    rw [← skipItem_eq]
    funext _ place
    simp only [skipMember, bind_assoc]
  rw [skipNested, skipBlanks_append areBlanks, skipBlanks_cons rfl, ← same]
  simp only
  cases readMembers (fun (_ : Unit) place => do
    let afterKey ← skipStringBody place
    pure ((), ← skipNested depth (← readColon afterKey))) (text.length + 1) true () text <;> rfl

theorem readColon_append (areBlanks : AreBlanks before) (text : Text) :
    readColon (before ++ ':' :: text) = .ok text := by
  rw [readColon, skipBlanks_append areBlanks, skipBlanks_cons rfl]
  rfl

theorem skipMember_append (isSpelling : IsSpelling spelled) (areBlanks : AreBlanks before)
    (skip : Text → Except ReadError Text) (text : Text) :
    skipMember skip (spelled ++ '"' :: (before ++ ':' :: text)) = skip text := by
  rw [skipMember, skipStringBody_of_isSpelling isSpelling]
  change (do skip (← readColon (before ++ ':' :: text))) = _
  rw [readColon_append areBlanks]
  rfl

/-- A list whose items are all skipped is skipped. -/
theorem takesAll_of_skipped {next : Bool → Text → Except ReadError (Text ⊕ Text)}
    {skip : Text → Except ReadError Text} {texts : List Text}
    (areSkipped : ∀ text ∈ texts, ∃ place, IsPlace next text place ∧
      ∀ rest, Follows rest → skip (place ++ rest) = .ok rest) :
    TakesAll next (skipItem skip) () texts () := by
  induction texts with
  | nil => exact .nil
  | cons text texts ih =>
      rw [List.forall_mem_cons] at areSkipped
      rcases areSkipped.1 with ⟨place, isPlace, isSkipped⟩
      refine .cons isPlace ?_ (ih areSkipped.2)
      intro rest follows
      rw [skipItem, isSkipped rest follows]
      rfl

theorem exists_mem_left_of_forall₂ {α β : Type} {holds : α → β → Prop} {lefts : List α}
    {rights : List β} (all : List.Forall₂ holds lefts rights) {right : β}
    (member : right ∈ rights) : ∃ left ∈ lefts, holds left right := by
  induction all with
  | nil => cases member
  | cons isHeld _ ih =>
      rcases List.mem_cons.1 member with rfl | later
      · exact ⟨_, List.mem_cons_self, isHeld⟩
      · rcases ih later with ⟨left, inLefts, isHeld⟩
        exact ⟨left, List.mem_cons_of_mem _ inLefts, isHeld⟩

end lists

/-- The first character of a value. -/
theorem exists_first_of_isValue (isValue : IsValue text) :
    ∃ first rest, text = first :: rest ∧ isJsonBlank first = false ∧ first ≠ ']' := by
  cases isValue with
  | number isNumber =>
      rcases exists_first_of_isNumber isNumber with ⟨first, rest, isText, begins⟩
      exact ⟨first, rest, isText, noBlank_of_begins begins,
        other_than_of_begins begins (by decide) (by decide)⟩
  | _ => exact ⟨_, _, rfl, by decide, by decide⟩

/-- Values are skipped up to what follows them. -/
theorem skipNested_of_isValue (isValue : IsValue text) (isDeep : text.length ≤ depth)
    (areBlanks : AreBlanks before) (follows : Follows rest) :
    skipNested depth (before ++ (text ++ rest)) = .ok rest := by
  induction isValue generalizing depth before rest with
  | null => exact skipNested_scalar areBlanks rfl (by decide) (by decide) _
  | true => exact skipNested_scalar areBlanks rfl (by decide) (by decide) _
  | false => exact skipNested_scalar areBlanks rfl (by decide) (by decide) _
  | number isNumber =>
      have isSkipped := skipNumber_of_isNumber isNumber follows
      rcases exists_first_of_isNumber isNumber with ⟨first, others, rfl, begins⟩
      rw [List.cons_append] at isSkipped ⊢
      rw [skipNested_scalar areBlanks (noBlank_of_begins begins)
        (other_than_of_begins begins (by decide) (by decide))
        (other_than_of_begins begins (by decide) (by decide)), skipScalar_number begins, isSkipped]
  | @string spelled isSpelling =>
      rw [List.cons_append, skipNested_scalar areBlanks rfl (by decide) (by decide),
        List.append_assoc]
      exact skipStringBody_of_isSpelling isSpelling rest
  | @array elements body areValues listed ih =>
      rcases depth with _ | depth
      · cases isDeep
      · have takesAll : TakesAll nextElement (skipItem (skipNested depth)) () elements () := by
          apply takesAll_of_skipped
          intro element member
          have isDeepEnough : element.length ≤ depth := by
            have shorter := length_le_of_mem_listed listed member
            simp only [List.length_cons, List.length_append] at isDeep
            omega
          rcases exists_first_of_isValue (areValues element member) with
            ⟨first, others, rfl, noBlank, noEnd⟩
          exact ⟨_, isPlace_element noBlank noEnd, fun rest follows =>
            ih _ member isDeepEnough (List.nil_subset _) follows⟩
        simp only [List.cons_append, List.append_assoc, List.nil_append]
        rw [skipNested_array areBlanks, readElements_of_listed listed takesAll]
        rfl
  | @object members texts body areSpellings areValues areMembers listed ih =>
      rcases depth with _ | depth
      · cases isDeep
      · have takesAll :
            TakesAll nextMember (skipItem (skipMember (skipNested depth))) () texts () := by
          apply takesAll_of_skipped
          intro text inTexts
          rcases exists_mem_left_of_forall₂ areMembers inTexts with
            ⟨⟨spelled, value⟩, member, isMember⟩
          have shorter := length_le_of_mem_listed listed inTexts
          rcases isMember with ⟨before, after, areBefore, areAfter, rfl⟩
          have isDeepEnough : value.length ≤ depth := by
            simp only [List.length_cons, List.length_append] at isDeep shorter
            omega
          refine ⟨_, isPlace_member _, fun rest follows => ?_⟩
          simp only [List.append_assoc, List.cons_append]
          rw [skipMember_append (areSpellings _ member) areBefore]
          exact ih _ member isDeepEnough areAfter follows
        simp only [List.cons_append, List.append_assoc, List.nil_append]
        rw [skipNested_object areBlanks, readMembers_of_listed listed takesAll]
        rfl

/-- Any value is skipped up to what follows it. -/
theorem skipValue_of_isValue (isValue : IsValue text) (areBlanks : AreBlanks before)
    (follows : Follows rest) : skipValue (before ++ (text ++ rest)) = .ok rest := by
  refine skipNested_of_isValue isValue ?_ areBlanks follows
  simp only [List.length_append]
  omega

end CompiledViews.Json
