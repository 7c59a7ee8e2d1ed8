import CompiledViews.Proofs.Json.Grammar
import Mathlib.Data.List.TakeDrop

/-!
# Numbers that are read

The digits of a whole number are read as that number as far as numbers are exact, and every number
of the grammar is skipped up to what follows it.
-/

namespace CompiledViews.Json

open Text

variable {digits text rest : Text} {number : Nat}

/-- What follows a number is no part of it. -/
theorem Follows.notInNumber (follows : Follows rest) :
    startsWithDigit rest = false ∧ rest.head? ≠ some '.' ∧ startsWithExponent rest = false := by
  cases rest with
  | nil => simp [startsWithDigit, startsWithExponent]
  | cons first rest =>
      have isFirst := follows first rfl
      simp only [List.mem_cons, List.not_mem_nil, or_false] at isFirst
      rcases isFirst with rfl | rfl | rfl | rfl | rfl | rfl | rfl <;>
        simp [startsWithDigit, startsWithExponent]

section digits

theorem startsWithDigit_append (isDigits : IsDigits digits) (rest : Text) :
    startsWithDigit (digits ++ rest) = true := by
  cases digits with
  | nil => exact absurd rfl isDigits.1
  | cons first digits => exact isDigits.2 first List.mem_cons_self

theorem spanDigits_append (areDigits : ∀ digit ∈ digits, digit.isDigit = true)
    (ends : startsWithDigit rest = false) : spanDigits (digits ++ rest) = (digits, rest) := by
  rw [spanDigits, List.span_eq_takeWhile_dropWhile, List.takeWhile_append_of_pos areDigits,
    List.dropWhile_append_of_pos areDigits]
  cases rest with
  | nil => simp
  | cons first rest =>
      have noDigit : ¬first.isDigit = true := by simpa [startsWithDigit] using ends
      rw [List.takeWhile_cons_of_neg noDigit, List.dropWhile_cons_of_neg noDigit, List.append_nil]

/-- Digits are taken in as long as the number that they spell is exact. -/
theorem takeDigits_append (areDigits : ∀ digit ∈ digits, digit.isDigit = true) {value : Nat}
    (isExact : digitsValue 10 value digits < exactLimit) (ends : startsWithDigit rest = false) :
    takeDigits value (digits ++ rest) = (digitsValue 10 value digits, rest) := by
  induction digits generalizing value with
  | nil =>
      cases rest with
      | nil => rfl
      | cons first rest =>
          have noDigit : first.isDigit = false := ends
          rw [List.nil_append, takeDigits, noDigit]
          rfl
  | cons first digits ih =>
      rw [List.forall_mem_cons] at areDigits
      have isFirst : digitValue first = hexDigitValue first := by
        have sameValue := hexDigitValue_of_isDigit areDigits.1
        rw [digitValue]
        omega
      rw [digitsValue] at isExact
      have isSmall : value * 10 + hexDigitValue first < exactLimit := by
        refine Nat.lt_of_le_of_lt ?_ isExact
        calc
          value * 10 + hexDigitValue first
            ≤ (value * 10 + hexDigitValue first) * 10 ^ digits.length :=
              Nat.le_mul_of_pos_right _ (Nat.pow_pos (by decide))
          _ ≤ digitsValue 10 (value * 10 + hexDigitValue first) digits := digitsValue_le ..
      rw [List.cons_append, takeDigits, isFirst, areDigits.1, decide_eq_true isSmall]
      exact ih areDigits.2 isExact

end digits

/-- The digits of a whole number are read as that number. -/
theorem readMagnitude_ofNat (isExact : number < exactLimit) (follows : Follows rest) :
    readMagnitude false (ofNat number ++ rest) = .ok (natural number, rest) := by
  rcases follows.notInNumber with ⟨noDigit, noPoint, noMark⟩
  have isDigits := isDigits_ofNat number
  have isTaken : takeDigits 0 (ofNat number ++ rest) = (number, rest) := by
    have isValue : digitsValue 10 0 (ofNat number) = number := decimalValue_ofNat number
    rw [takeDigits_append isDigits.2 (by rwa [isValue]) noDigit, isValue]
  have isSplit : (if (ofNat number ++ rest).head? = some '0' then (0, (ofNat number ++ rest).drop 1)
      else takeDigits 0 (ofNat number ++ rest)) = (number, rest) := by
    rw [isTaken]
    split_ifs with isZero
    · rw [List.head?_append_of_ne_nil _ isDigits.1, head?_ofNat_eq_zero_iff] at isZero
      rw [isZero]
      rfl
    · rfl
  have isSome : ofNat number ++ rest ≠ [] := List.append_ne_nil_of_left_ne_nil isDigits.1 rest
  rw [readMagnitude, isSplit]
  simp only [isSome, startsWithDigit_append isDigits, noDigit, noPoint, noMark, Bool.not_true,
    Bool.not_false, Bool.false_eq_true, if_false, if_true]
  rfl

section skipping

/-- Digits behind a point are skipped up to what follows them. -/
theorem skipFraction_append (isFraction : IsFraction text) (noDigit : startsWithDigit rest = false)
    (noPoint : rest.head? ≠ some '.') : skipFraction (text ++ rest) = .ok rest := by
  rcases isFraction with rfl | ⟨digits, isDigits, rfl⟩
  · rw [List.nil_append, skipFraction, if_neg noPoint]
  · have isBehind : ('.' :: (digits ++ rest)).drop 1 = digits ++ rest := rfl
    rw [List.cons_append, skipFraction, List.head?_cons, if_pos rfl, isBehind,
      if_pos (startsWithDigit_append isDigits rest), spanDigits_append isDigits.2 noDigit]

theorem skipSign_of_startsWithDigit (isDigit : startsWithDigit text = true) :
    skipSign text = text ∧ skipMinus text = text := by
  unfold skipSign skipMinus
  split <;> split <;> first | exact ⟨rfl, rfl⟩ | cases isDigit

/-- A power of ten is skipped up to what follows it. -/
theorem skipExponent_append (isExponent : IsExponent text) (follows : Follows rest) :
    skipExponent (text ++ rest) = .ok rest := by
  rcases follows.notInNumber with ⟨noDigit, noPoint, noMark⟩
  rcases isExponent with rfl | ⟨mark, isMark, sign, isSign, digits, isDigits, rfl⟩
  · rw [List.nil_append, skipExponent, noMark]
    rfl
  · have isBehind : (mark :: (sign ++ digits ++ rest)).drop 1 = sign ++ (digits ++ rest) := by
      rw [List.append_assoc]
      rfl
    have starts := startsWithDigit_append isDigits rest
    have afterSign : skipSign (sign ++ (digits ++ rest)) = digits ++ rest := by
      simp only [List.mem_cons, List.not_mem_nil, or_false] at isSign
      rcases isSign with rfl | rfl | rfl
      · exact (skipSign_of_startsWithDigit starts).1
      · rfl
      · rfl
    have begins : startsWithExponent (mark :: (sign ++ digits ++ rest)) = true := by
      rcases List.mem_pair.1 isMark with rfl | rfl <;> rfl
    rw [List.cons_append, skipExponent, if_pos begins, isBehind, afterSign, if_pos starts,
      spanDigits_append isDigits.2 noDigit]

/-- A whole part without idle zeros is skipped up to what follows it. -/
theorem skipWhole_append (isDigits : IsDigits digits) (isPlain : IsPlain digits)
    (noDigit : startsWithDigit rest = false) : skipWhole (digits ++ rest) = .ok rest := by
  rw [skipWhole, if_pos (startsWithDigit_append isDigits rest),
    List.head?_append_of_ne_nil _ isDigits.1]
  split_ifs with isZero goesOn
  · rw [isPlain isZero] at goesOn
    change startsWithDigit rest = true at goesOn
    rw [noDigit] at goesOn
    cases goesOn
  · rw [isPlain isZero]
    rfl
  · rw [spanDigits_append isDigits.2 noDigit]

end skipping

/-- A number is skipped up to what follows it. -/
theorem skipNumber_of_isNumber (isNumber : IsNumber text) (follows : Follows rest) :
    skipNumber (text ++ rest) = .ok rest := by
  rcases isNumber with ⟨sign, isSign, whole, fraction, exponent, isDigits, isPlain, isFraction,
    isExponent, rfl⟩
  rcases follows.notInNumber with ⟨noDigit, noPoint, noMark⟩
  have starts := startsWithDigit_append isDigits (fraction ++ (exponent ++ rest))
  have afterSign : skipMinus (sign ++ (whole ++ (fraction ++ (exponent ++ rest)))) =
      whole ++ (fraction ++ (exponent ++ rest)) := by
    rcases List.mem_pair.1 isSign with rfl | rfl
    · exact (skipSign_of_startsWithDigit starts).2
    · rfl
  have behindFraction : startsWithDigit (exponent ++ rest) = false ∧
      (exponent ++ rest).head? ≠ some '.' := by
    rcases isExponent with rfl | ⟨mark, isMark, sign, isSign, digits, isDigits, rfl⟩
    · exact ⟨noDigit, noPoint⟩
    · rcases List.mem_pair.1 isMark with rfl | rfl <;> exact ⟨rfl, by simp⟩
  have behindWhole : startsWithDigit (fraction ++ (exponent ++ rest)) = false := by
    rcases isFraction with rfl | ⟨digits, isDigits, rfl⟩
    · exact behindFraction.1
    · rfl
  simp only [List.append_assoc]
  rw [skipNumber, afterSign, skipWhole_append isDigits isPlain behindWhole]
  change skipFraction (fraction ++ (exponent ++ rest)) >>= skipExponent = _
  rw [skipFraction_append isFraction behindFraction.1 behindFraction.2]
  exact skipExponent_append isExponent follows

end CompiledViews.Json
