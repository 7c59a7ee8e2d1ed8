import CompiledViews.Proofs.Text.Parts
import CompiledViews.Text.Numeral

/-!
# Numerals that are read

A text of ASCII digits is read as the number that its digits spell, if that has at most thirty-two
bits; four hexadecimal digits always have fewer.
-/

namespace CompiledViews.Text

/-- Digits, at least one. -/
def IsDigits (text : Text) : Prop := text ≠ [] ∧ ∀ digit ∈ text, digit.isDigit = true

instance (text : Text) : Decidable text.IsDigits :=
  inferInstanceAs (Decidable (text ≠ [] ∧ ∀ digit ∈ text, digit.isDigit = true))

/-- A numeral that does not begin with a zero, unless that is all of it. -/
def IsPlain (text : Text) : Prop := text.head? = some '0' → text = "0"

instance (text : Text) : Decidable text.IsPlain :=
  inferInstanceAs (Decidable (text.head? = some '0' → text = "0".toList))

/-- Digits of some kind, at least one, that spell a number of thirty-two bits in a base. -/
structure IsNumeral (base : Nat) (isDigit : Char → Bool) (text : Text) : Prop where
  nonempty : text ≠ []
  digits : ∀ digit ∈ text, isDigit digit = true
  small : digitsValue base 0 text < wordLimit

instance (base : Nat) (isDigit : Char → Bool) (text : Text) :
    Decidable (text.IsNumeral base isDigit) :=
  decidable_of_iff
    (text ≠ [] ∧ (∀ digit ∈ text, isDigit digit = true) ∧ digitsValue base 0 text < wordLimit)
    ⟨fun ⟨nonempty, digits, small⟩ => ⟨nonempty, digits, small⟩,
      fun numeral => ⟨numeral.1, numeral.2, numeral.3⟩⟩

/-- A decimal numeral in ASCII digits. -/
abbrev IsDecimal (text : Text) : Prop := text.IsNumeral 10 Char.isDigit

/-- A hexadecimal numeral in lower case, without the mark `0x`. -/
abbrev IsLowerHex (text : Text) : Prop := text.IsNumeral 16 isLowerHexDigit

/-- A hexadecimal numeral in either case, without the mark `0x`. -/
abbrev IsHex (text : Text) : Prop := text.IsNumeral 16 isHexDigit

/-- The number that a decimal numeral spells. -/
def decimalValue (text : Text) : Nat := digitsValue 10 0 text

/-- The number that a hexadecimal numeral spells. -/
def hexValue (text : Text) : Nat := digitsValue 16 0 text

theorem after?_eq_none_of_head? {first : Char} {mark text : Text}
    (differs : text.head? ≠ some first) :
    after? (first :: mark) text = none := by
  by_contra found
  obtain ⟨rest, isAfter⟩ := Option.ne_none_iff_exists'.1 found
  rw [after?_eq_some_iff] at isAfter
  simp [isAfter] at differs

theorem IsNumeral.numeral? {base : Nat} {isDigit isMember : Char → Bool} {text : Text}
    (isNumeral : text.IsNumeral base isDigit)
    (members : ∀ digit, isDigit digit = true → isMember digit = true)
    (noPlus : isDigit '+' = false) :
    Text.numeral? base isMember wordLimit text = some (digitsValue base 0 text) := by
  have noSign : after? "+" text = none := by
    refine after?_eq_none_of_head? fun isPlus => ?_
    simp [isNumeral.digits '+' (List.mem_of_head? isPlus)] at noPlus
  have areMembers : text.all isMember = true :=
    List.all_eq_true.2 fun digit inText => members digit (isNumeral.digits digit inText)
  rw [Text.numeral?, noSign]
  exact if_pos ⟨isNumeral.nonempty, areMembers, isNumeral.small⟩

theorem IsNumeral.decimal? {text : Text} (isDecimal : text.IsDecimal) :
    Text.decimal? text = some text.decimalValue :=
  isDecimal.numeral? (fun _ => id) (by decide)

/-- A number that is read from a text without a sign is what the digits of the text spell. -/
theorem isDecimal_of_decimal? {text : Text} {value : Nat} (found : Text.decimal? text = some value)
    (noSign : '+' ∉ text) : text.IsDecimal ∧ text.decimalValue = value := by
  have noPlus : after? "+" text = none :=
    after?_eq_none_of_head? fun isFirst => noSign (List.mem_of_head? isFirst)
  rw [Text.decimal?, Text.numeral?, noPlus] at found
  obtain ⟨isNumeral, isValue⟩ := Option.ite_none_right_eq_some.1 found
  obtain ⟨nonempty, digits, small⟩ := isNumeral
  exact ⟨⟨nonempty, List.all_eq_true.1 digits, small⟩, Option.some.inj isValue⟩

theorem isHexDigit_of_isLowerHexDigit {digit : Char} (isLower : isLowerHexDigit digit = true) :
    isHexDigit digit = true := by
  rw [isHexDigit, Bool.or_eq_true]
  exact .inl isLower

theorem IsNumeral.isHex {text : Text} (isLower : text.IsLowerHex) : text.IsHex where
  nonempty := isLower.nonempty
  digits := fun digit inText => isHexDigit_of_isLowerHexDigit (isLower.digits digit inText)
  small := isLower.small

theorem IsNumeral.hexadecimal? {text : Text} (isHex : text.IsHex) :
    Text.hexadecimal? text = some text.hexValue := by
  have noMark : after? "0x" text = none := by
    by_contra found
    obtain ⟨rest, isAfter⟩ := Option.ne_none_iff_exists'.1 found
    rw [after?_eq_some_iff] at isAfter
    have isDigit := isHex.digits 'x' (by simp [isAfter])
    revert isDigit
    decide
  rw [Text.hexadecimal?, noMark]
  exact isHex.numeral? (fun _ => id) (by decide)

theorem hexDigitValue_lt {digit : Char} (isDigit : isLowerHexDigit digit = true) :
    hexDigitValue digit < 16 := by
  rw [hexDigitValue]
  split
  case isTrue isDecimal =>
    simp only [Char.isDigit, Bool.and_eq_true, decide_eq_true_eq, UInt32.le_iff_toNat_le,
      ge_iff_le] at isDecimal
    have atMost : digit.toNat ≤ 0x39 := isDecimal.2
    omega
  case isFalse noDecimal =>
    simp only [isLowerHexDigit, noDecimal, Bool.false_or, Bool.and_eq_true, decide_eq_true_eq,
      Char.le_def, UInt32.le_iff_toNat_le] at isDigit
    have atLeast : 'a' ≤ digit := isDigit.1
    have atMost : digit.toNat ≤ 0x66 := isDigit.2
    rw [if_pos atLeast]
    omega

/-- Digits of a base spell less than the power of the base that has one digit more. -/
theorem digitsValue_lt {base : Nat} {text : Text} (value : Nat)
    (digits : ∀ digit ∈ text, hexDigitValue digit < base) :
    digitsValue base value text < (value + 1) * Nat.pow base text.length := by
  induction text generalizing value with
  | nil => simp [digitsValue]
  | cons first text ih =>
      obtain ⟨isDigit, others⟩ := List.forall_mem_cons.1 digits
      rw [digitsValue, List.length_cons]
      calc
        digitsValue base (value * base + hexDigitValue first) text
          < (value * base + hexDigitValue first + 1) * Nat.pow base text.length := ih _ others
        _ ≤ ((value + 1) * base) * Nat.pow base text.length :=
          Nat.mul_le_mul_right _ (by rw [Nat.add_one_mul]; omega)
        _ = (value + 1) * (Nat.pow base text.length * base) := by
          rw [Nat.mul_assoc, Nat.mul_comm base]

theorem digitsValue_le (base value : Nat) (text : Text) :
    value * Nat.pow base text.length ≤ digitsValue base value text := by
  induction text generalizing value with
  | nil => simp [digitsValue]
  | cons first text ih =>
      rw [digitsValue, List.length_cons]
      calc
        value * Nat.pow base (text.length + 1)
          = value * base * Nat.pow base text.length := by
            rw [Nat.pow_eq, Nat.pow_succ, Nat.mul_comm (base ^ _), Nat.mul_assoc, Nat.pow_eq]
        _ ≤ (value * base + hexDigitValue first) * Nat.pow base text.length :=
          Nat.mul_le_mul_right _ (Nat.le_add_right ..)
        _ ≤ digitsValue base (value * base + hexDigitValue first) text := ih _

theorem hexDigitValue_of_isDigit {digit : Char} (isDigit : digit.isDigit = true) :
    hexDigitValue digit + 48 = digit.toNat ∧ hexDigitValue digit < 10 := by
  rw [hexDigitValue, if_pos isDigit]
  simp only [Char.isDigit, Bool.and_eq_true, decide_eq_true_eq, UInt32.le_iff_toNat_le,
    ge_iff_le] at isDigit
  have bounds : 48 ≤ digit.toNat ∧ digit.toNat ≤ 57 := isDigit
  omega

/-- The digits of a number spell it, without idle zeros. -/
theorem decimalValue_ofNat (number : Nat) : decimalValue (ofNat number) = number := by
  have sameValue (text : Text) (areDigits : ∀ digit ∈ text, digit.isDigit = true) (value : Nat) :
      digitsValue 10 value text = Nat.ofDigitChars 10 text value := by
    induction text generalizing value with
    | nil => simp [digitsValue]
    | cons first text ih =>
        rw [List.forall_mem_cons] at areDigits
        have isFirst := hexDigitValue_of_isDigit areDigits.1
        have isZero : '0'.toNat = 48 := rfl
        rw [digitsValue, Nat.ofDigitChars_cons, ih areDigits.2]
        apply congrArg
        omega
  rw [decimalValue, ofNat,
    sameValue _ fun _ => Nat.isDigit_of_mem_toDigits (by decide) (by decide)]
  exact Nat.ofDigitChars_ten_toDigits

theorem isDigits_ofNat (number : Nat) : IsDigits (ofNat number) :=
  ⟨Nat.toDigits_ne_nil, fun _ => Nat.isDigit_of_mem_toDigits (by decide) (by decide)⟩

theorem head?_ofNat_eq_zero_iff (number : Nat) :
    (ofNat number).head? = some '0' ↔ number = 0 := by
  induction number using Nat.strongRecOn with
  | _ number ih =>
      rw [ofNat, Nat.toDigits_eq_if (by decide)]
      split_ifs with isSmall
      · simp
      · have shorter := ih (number / 10) (by omega)
        rw [ofNat] at shorter
        rw [List.head?_append_of_ne_nil _ Nat.toDigits_ne_nil, shorter]
        omega

theorem isLowerHex_of_length {text : Text} (digits : ∀ digit ∈ text, isLowerHexDigit digit = true)
    (isLong : text.length = 4) : text.IsLowerHex where
  nonempty := by
    rintro rfl
    cases isLong
  digits := digits
  small := by
    have below := digitsValue_lt 0 fun digit inText => hexDigitValue_lt (digits digit inText)
    rw [isLong] at below
    exact Nat.lt_of_lt_of_le below (by decide)

theorem isDecimalDigit_of_isDigit {digit : Char} (isDigit : digit.isDigit = true) :
    isDecimalDigit digit = true := by
  simp only [Char.isDigit, Bool.and_eq_true, decide_eq_true_eq, UInt32.le_iff_toNat_le,
    ge_iff_le] at isDigit
  have bounds : 0x30 ≤ digit.toNat ∧ digit.toNat ≤ 0x39 := isDigit
  simp [isDecimalDigit, decimalDigitRanges, inRanges, bounds]

theorem IsNumeral.isDecimalDigit {text : Text} (isDecimal : text.IsDecimal) :
    ∀ digit ∈ text, Text.isDecimalDigit digit = true :=
  fun digit inText => isDecimalDigit_of_isDigit (isDecimal.digits digit inText)

end CompiledViews.Text
