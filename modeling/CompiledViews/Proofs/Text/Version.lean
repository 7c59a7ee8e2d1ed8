import CompiledViews.Proofs.FileTree.Path
import CompiledViews.Proofs.Text.Numeral
import CompiledViews.Proofs.Text.Order

/-!
# Names of versions

A version is named by its numbers with periods between them. As texts such names are in the order
of their numerals, taken one after the other as texts: a period comes before every digit. That is
the order of the numbers where numerals have the same number of digits. Of two different numerals
without idle zeros the one that comes later as a text is the smaller number exactly if it has fewer
digits.
-/

namespace CompiledViews.Text

variable {left right numeral : Text} {lefts rights : List Text}

/-- The comparison of lists of texts, one text after the other. -/
abbrev Precede (lefts rights : List Text) : Prop :=
  List.Lex (fun left right => precedes left right = true) lefts rights

section order

theorem precedes_cons (first second : Char) (left right : Text) :
    precedes (first :: left) (second :: right) = true ↔
      first.toNat < second.toNat ∨ first = second ∧ precedes left right = true := by
  rw [precedes, Bool.or_eq_true, Bool.and_eq_true, decide_eq_true_iff, beq_iff_eq,
    toNat_injective.eq_iff]

theorem precedes_irrefl (text : Text) : precedes text text = false := by
  rw [Bool.eq_false_iff, Ne, precedes_iff_lt]
  exact lt_irrefl _

theorem precedes_trichotomy (left right : Text) :
    precedes left right = true ∨ left = right ∨ precedes right left = true := by
  rw [precedes_iff_lt, precedes_iff_lt, ← toNat_injective.list_map.eq_iff]
  exact lt_trichotomy _ _

/-- What may stand behind a numeral: nothing, or a period and more. -/
def IsBehind (rest : Text) : Prop := rest = [] ∨ ∃ more, rest = '.' :: more

/-- The order of texts that begin with numerals is that of the numerals, and behind equal ones that
of what follows. -/
theorem precedes_append_iff {after behind : Text} (areLeft : ∀ digit ∈ left, digit.isDigit = true)
    (areRight : ∀ digit ∈ right, digit.isDigit = true) (isAfter : IsBehind after)
    (isBehind : IsBehind behind) :
    precedes (left ++ after) (right ++ behind) = true ↔
      precedes left right = true ∨ left = right ∧ precedes after behind = true := by
  have periodBefore {digit : Char} (isDigit : digit.isDigit = true) : '.'.toNat < digit.toNat := by
    simp only [Char.isDigit, Bool.and_eq_true, decide_eq_true_eq, UInt32.le_iff_toNat_le,
      ge_iff_le] at isDigit
    exact Nat.lt_of_lt_of_le (by decide) isDigit.1
  induction left generalizing right with
  | nil =>
      cases right with
      | nil => simp [precedes]
      | cons second right =>
          rw [List.forall_mem_cons] at areRight
          have before := periodBefore areRight.1
          rcases isAfter with rfl | ⟨more, rfl⟩
          · simp [precedes]
          · rw [List.nil_append, List.cons_append, precedes_cons]
            exact iff_of_true (.inl before) (.inl rfl)
  | cons first left ih =>
      rw [List.forall_mem_cons] at areLeft
      cases right with
      | nil =>
          have before := periodBefore areLeft.1
          rcases isBehind with rfl | ⟨more, rfl⟩
          · simp [precedes]
          · have differ : first ≠ '.' := by
              rintro rfl
              exact lt_irrefl _ before
            rw [List.nil_append, List.cons_append, precedes_cons]
            simp only [differ, Nat.lt_asymm before, false_and, or_self, precedes, List.cons_ne_nil,
              Bool.false_eq_true]
      | cons second right =>
          rw [List.forall_mem_cons] at areRight
          simp only [List.cons_append, precedes_cons, ih areLeft.2 areRight.2, List.cons.injEq,
            and_or_left, or_assoc, and_assoc]

/-- Names of versions are in the order of their numerals, taken one after the other as texts. -/
theorem precedes_join_iff (someLeft : lefts ≠ []) (someRight : rights ≠ [])
    (areLeft : ∀ numeral ∈ lefts, IsDigits numeral)
    (areRight : ∀ numeral ∈ rights, IsDigits numeral) :
    precedes (join "." lefts) (join "." rights) = true ↔ Precede lefts rights := by
  -- what follows the first numeral of a name
  have isJoin (first : Text) (others : List Text) : ∃ rest, join "." (first :: others) =
      first ++ rest ∧ IsBehind rest ∧ (others = [] ↔ rest = []) ∧
        (others ≠ [] → rest = '.' :: join "." others) := by
    cases others with
    | nil => exact ⟨[], by simp [join], .inl rfl, by simp, by simp⟩
    | cons second others =>
        exact ⟨'.' :: join "." (second :: others), by simp [join], .inr ⟨_, rfl⟩, by simp, by simp⟩
  induction lefts generalizing rights with
  | nil => exact absurd rfl someLeft
  | cons left lefts ih =>
      rcases List.exists_cons_of_ne_nil someRight with ⟨right, rights, rfl⟩
      rw [List.forall_mem_cons] at areLeft areRight
      rcases isJoin left lefts with ⟨after, joinsLeft, isAfter, endsLeft, goesOnLeft⟩
      rcases isJoin right rights with ⟨behind, joinsRight, isBehind, endsRight, goesOnRight⟩
      rw [joinsLeft, joinsRight, precedes_append_iff areLeft.1.2 areRight.1.2 isAfter isBehind,
        Precede, List.cons_lex_cons_iff]
      apply or_congr_right
      apply and_congr_right
      intro _
      by_cases lastRight : rights = []
      · rw [endsRight.1 lastRight, lastRight]
        cases after <;> simp [precedes]
      · rw [goesOnRight lastRight]
        by_cases lastLeft : lefts = []
        · rcases List.exists_cons_of_ne_nil lastRight with ⟨next, others, rfl⟩
          rw [endsLeft.1 lastLeft, lastLeft]
          simp [precedes]
        · rw [goesOnLeft lastLeft, precedes_cons]
          simp only [lt_irrefl, false_or, true_and]
          exact ih lastLeft lastRight areLeft.2 areRight.2

end order

section values

theorem digitsValue_lt_of_lt {value other : Nat} (smaller : value < other)
    (areLeft : ∀ digit ∈ left, digit.isDigit = true) (sameLength : left.length = right.length) :
    digitsValue 10 value left < digitsValue 10 other right := by
  calc
    digitsValue 10 value left
      < (value + 1) * Nat.pow 10 left.length :=
        digitsValue_lt value fun digit inLeft => (hexDigitValue_of_isDigit (areLeft digit inLeft)).2
    _ ≤ other * Nat.pow 10 right.length := by
        rw [sameLength]
        exact Nat.mul_le_mul_right _ smaller
    _ ≤ digitsValue 10 other right := digitsValue_le ..

/-- Of two numerals with the same number of digits the one that comes first is the smaller one. -/
theorem decimalValue_lt_of_precedes (areLeft : ∀ digit ∈ left, digit.isDigit = true)
    (areRight : ∀ digit ∈ right, digit.isDigit = true) (sameLength : left.length = right.length)
    (before : precedes left right = true) : decimalValue left < decimalValue right := by
  have smaller (value : Nat) : digitsValue 10 value left < digitsValue 10 value right := by
    induction left generalizing right value with
    | nil =>
        cases right with
        | nil => cases before
        | cons second right => cases sameLength
    | cons first left ih =>
        cases right with
        | nil => cases sameLength
        | cons second right =>
            rw [List.forall_mem_cons] at areLeft areRight
            rw [List.length_cons, List.length_cons, Nat.add_right_cancel_iff] at sameLength
            have isFirst := hexDigitValue_of_isDigit areLeft.1
            have isSecond := hexDigitValue_of_isDigit areRight.1
            rw [digitsValue, digitsValue]
            rcases (precedes_cons ..).1 before with less | ⟨rfl, later⟩
            · exact digitsValue_lt_of_lt (by omega) areLeft.2 sameLength
            · exact ih areLeft.2 areRight.2 sameLength later _
  exact smaller 0

/-- A numeral without idle zeros is greater than one with fewer digits. -/
theorem decimalValue_lt_of_length_lt (isLeft : IsDigits left) (isRight : IsDigits right)
    (isPlain : IsPlain right) (shorter : left.length < right.length) :
    decimalValue left < decimalValue right := by
  have positive := List.length_pos_iff.2 isLeft.1
  cases right with
  | nil => cases shorter
  | cons first right =>
      have isFirst := hexDigitValue_of_isDigit (isRight.2 first List.mem_cons_self)
      have notZero : first ≠ '0' := by
        rintro rfl
        have isZero : right = [] := (List.cons.inj (isPlain rfl)).2
        rw [isZero, List.length_singleton] at shorter
        omega
      have leads : 1 ≤ hexDigitValue first := by
        by_contra isZero
        apply notZero
        apply toNat_injective
        have isNat : '0'.toNat = 48 := rfl
        omega
      calc
        decimalValue left
          < (0 + 1) * Nat.pow 10 left.length :=
            digitsValue_lt 0 fun digit inLeft =>
              (hexDigitValue_of_isDigit (isLeft.2 digit inLeft)).2
        _ ≤ 1 * Nat.pow 10 right.length :=
          Nat.mul_le_mul_left _ (Nat.pow_le_pow_right (by decide) (Nat.le_of_lt_succ shorter))
        _ ≤ (0 * 10 + hexDigitValue first) * Nat.pow 10 right.length :=
          Nat.mul_le_mul_right _ (by omega)
        _ ≤ decimalValue (first :: right) := digitsValue_le ..

/-- Of two numerals without idle zeros the one that comes later is the smaller one exactly if it has
fewer digits. -/
theorem decimalValue_lt_iff_of_precedes (isLeft : IsDigits left) (isRight : IsDigits right)
    (isPlainLeft : IsPlain left) (isPlainRight : IsPlain right)
    (before : precedes left right = true) :
    (decimalValue right < decimalValue left ↔ right.length < left.length) ∧
      decimalValue right ≠ decimalValue left := by
  rcases Nat.lt_trichotomy right.length left.length with fewer | same | more
  · have smaller := decimalValue_lt_of_length_lt isRight isLeft isPlainLeft fewer
    omega
  · have greater := decimalValue_lt_of_precedes isLeft.2 isRight.2 same.symm before
    omega
  · have greater := decimalValue_lt_of_length_lt isLeft isRight isPlainRight more
    omega

end values

section versions

/-- The numerals of the name of a version. -/
def numerals (name : Text) : List Text := splitAll '.' name

/-- Whether a text is the name of a version: numerals with periods between them. -/
def IsVersion (name : Text) : Prop := ∀ numeral ∈ numerals name, IsDigits numeral

/-- The numbers of a version. Versions are compared number by number. -/
def version (name : Text) : List Nat := (numerals name).map decimalValue

/-- Whether the first numerals in which two versions differ are such that the one of the first
version has fewer digits. -/
def HasFewerDigits : List Text → List Text → Prop
  | left :: lefts, right :: rights =>
    if left = right then HasFewerDigits lefts rights else left.length < right.length
  | _, _ => False

theorem not_hasFewerDigits_self (texts : List Text) : ¬HasFewerDigits texts texts := by
  induction texts with
  | nil => exact id
  | cons text texts ih => simpa [HasFewerDigits] using ih

variable {name other : Text}

theorem join_splitAll (separator : Char) (text : Text) :
    join [separator] (splitAll separator text) = text := by
  induction text with
  | nil => rfl
  | cons first text ih =>
      rw [splitAll]
      cases pieces : splitAll separator text with
      | nil => exact absurd pieces splitAll_ne_nil
      | cons piece others =>
          rw [pieces] at ih
          split_ifs with isSeparator
          · rw [isSeparator, join, ih]
            rfl
          · cases others <;> simp_all [join]

/-- Names of versions are in the order of their numerals. -/
theorem precedes_iff_of_isVersion (isName : IsVersion name) (isOther : IsVersion other) :
    precedes name other = true ↔ Precede (numerals name) (numerals other) := by
  have inOrder := precedes_join_iff splitAll_ne_nil splitAll_ne_nil isName isOther
  change precedes (join ['.'] (splitAll '.' name)) (join ['.'] (splitAll '.' other)) = true ↔ _
    at inOrder
  rwa [join_splitAll, join_splitAll] at inOrder

/-- A version whose name comes later is the newer one where numerals at the same place have the same
number of digits. -/
theorem map_decimalValue_le (areLeft : ∀ numeral ∈ lefts, IsDigits numeral)
    (areRight : ∀ numeral ∈ rights, IsDigits numeral)
    (sameLength : ∀ pair ∈ lefts.zip rights, pair.1.length = pair.2.length)
    (precede : Precede lefts rights) :
    lefts.map decimalValue ≤ rights.map decimalValue := by
  induction precede with
  | nil => exact le_of_lt (List.nil_lt_cons _ _)
  | cons _ ih =>
      rw [List.forall_mem_cons] at areLeft areRight
      rw [List.zip_cons_cons, List.forall_mem_cons] at sameLength
      exact List.cons_le_cons _ (ih areLeft.2 areRight.2 sameLength.2)
  | rel before =>
      rw [List.forall_mem_cons] at areLeft areRight
      rw [List.zip_cons_cons, List.forall_mem_cons] at sameLength
      have smaller := decimalValue_lt_of_precedes areLeft.1.2 areRight.1.2 sameLength.1 before
      exact le_of_lt (List.Lex.rel smaller)

/-- Of two versions without idle zeros the one whose name comes later is the older one exactly if it
has fewer digits where they first differ. -/
theorem map_decimalValue_lt_iff (areLeft : ∀ numeral ∈ lefts, IsDigits numeral ∧ IsPlain numeral)
    (areRight : ∀ numeral ∈ rights, IsDigits numeral ∧ IsPlain numeral)
    (precede : Precede lefts rights) :
    rights.map decimalValue < lefts.map decimalValue ↔ HasFewerDigits rights lefts := by
  induction precede with
  | nil => simp [HasFewerDigits]
  | @cons numeral lefts rights _ ih =>
      rw [List.forall_mem_cons] at areLeft areRight
      rw [List.map_cons, List.map_cons, List.cons_lt_cons_iff, HasFewerDigits, if_pos rfl,
        ← ih areLeft.2 areRight.2]
      simp
  | @rel left lefts right rights before =>
      rw [List.forall_mem_cons] at areLeft areRight
      have differ : right ≠ left := by
        rintro rfl
        rw [precedes_irrefl] at before
        cases before
      have values := decimalValue_lt_iff_of_precedes areLeft.1.1 areRight.1.1 areLeft.1.2
        areRight.1.2 before
      rw [List.map_cons, List.map_cons, List.cons_lt_cons_iff, HasFewerDigits, if_neg differ,
        ← values.1]
      simp [values.2]

end versions

end CompiledViews.Text
