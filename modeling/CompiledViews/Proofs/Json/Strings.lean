import CompiledViews.Proofs.Json.Grammar

/-!
# Strings that are read

A string is read as the text that it spells, and what is skipped of a string is all of it. The
compact form of a text spells that text.
-/

namespace CompiledViews.Json

open Text

variable {strict : Bool} {character letter : Char} {digits piece value spelled rest : Text}

theorem readHex4_append (isUnit : IsUnit digits) (rest : Text) :
    readHex4 (digits ++ rest) = .ok (hexValue digits) := by
  have isTaken : (digits ++ rest).take 4 = digits := List.take_left' isUnit.1
  rw [readHex4, isTaken]
  exact if_pos ⟨isUnit.1, List.all_eq_true.2 isUnit.2⟩

theorem simpleEscape?_of_mem (isShort : (letter, character) ∈ shortEscapes) :
    simpleEscape? letter = some character ∧ letter ≠ 'u' := by
  simp only [shortEscapes, List.mem_cons, List.not_mem_nil, or_false, Prod.mk.injEq] at isShort
  rcases isShort with ⟨rfl, rfl⟩ | ⟨rfl, rfl⟩ | ⟨rfl, rfl⟩ | ⟨rfl, rfl⟩ | ⟨rfl, rfl⟩ | ⟨rfl, rfl⟩ |
    ⟨rfl, rfl⟩ | ⟨rfl, rfl⟩ <;> decide

/-- The characters of an escape that have been read already are passed over. -/
theorem readStringFrom_eq_drop (strict : Bool) (skip : Nat) (text : Text) :
    readStringFrom strict skip text = readStringFrom strict 0 (text.drop skip) := by
  induction text generalizing skip with
  | nil => cases skip <;> rfl
  | cons first text ih =>
      cases skip with
      | zero => rfl
      | succ skip => rw [readStringFrom, ih, List.drop_succ_cons]

/-- One character more in front of the rest of a string. -/
def consRead (character : Char) (read : Except ReadError (Text × Text)) :
    Except ReadError (Text × Text) :=
  read.map fun (value, final) => (character :: value, final)

theorem readStringFrom_unescaped (isUnescaped : IsUnescaped character) (text : Text) :
    readStringFrom strict 0 (character :: text) =
      consRead character (readStringFrom strict 0 text) := by
  rw [readStringFrom]
  · rw [if_neg (Nat.not_lt.2 isUnescaped.1)]
    cases readStringFrom strict 0 text <;> rfl
  · exact isUnescaped.2.1
  · exact isUnescaped.2.2

theorem readStringFrom_escape {count : Nat} {text : Text}
    (isRead : readEscape strict text = .ok (character, count)) :
    readStringFrom strict 0 ('\\' :: text) =
      consRead character (readStringFrom strict 0 (text.drop count)) := by
  rw [readStringFrom, isRead]
  simp only
  rw [readStringFrom_eq_drop]
  cases readStringFrom strict 0 (text.drop count) <;> rfl

section escapes

theorem readEscape_short (isShort : (letter, character) ∈ shortEscapes) (rest : Text) :
    readEscape strict (letter :: rest) = .ok (character, 1) := by
  rcases simpleEscape?_of_mem isShort with ⟨isSimple, noUnit⟩
  rw [readEscape]
  · simp only [isSimple]
  · exact noUnit

theorem readEscape_skipped (isUnit : IsUnit digits) (rest : Text) :
    readEscape false ('u' :: (digits ++ rest)) = .ok ('?', 5) := by
  rw [readEscape, readHex4_append isUnit]
  rfl

theorem readEscape_unit (isUnit : IsUnit digits) (isValue : hexValue digits = character.toNat)
    (rest : Text) : readEscape true ('u' :: (digits ++ rest)) = .ok (character, 5) := by
  have isScalar : character.toNat < 0xD800 ∨
      0xDFFF < character.toNat ∧ character.toNat < 0x110000 := character.valid
  have noLow : isLowSurrogate character.toNat = false := by
    rw [isLowSurrogate, Bool.and_eq_false_iff, decide_eq_false_iff_not, decide_eq_false_iff_not]
    omega
  have noHigh : isHighSurrogate character.toNat = false := by
    rw [isHighSurrogate, Bool.and_eq_false_iff, decide_eq_false_iff_not, decide_eq_false_iff_not]
    omega
  rw [readEscape, readHex4_append isUnit, isValue]
  simp only [Bool.not_true, Bool.false_eq_true, if_false, noLow, noHigh, Char.ofNat_toNat]

theorem readEscape_pair {high low : Text} (isHigh : IsUnit high) (isLow : IsUnit low)
    (highBounds : 0xD800 ≤ hexValue high ∧ hexValue high < 0xDC00)
    (lowBounds : 0xDC00 ≤ hexValue low ∧ hexValue low < 0xE000)
    (isValue : 0x10000 + (hexValue high - 0xD800) * 0x400 + (hexValue low - 0xDC00) =
      character.toNat) (rest : Text) :
    readEscape true ('u' :: (high ++ '\\' :: 'u' :: (low ++ rest))) = .ok (character, 11) := by
  have noLow : isLowSurrogate (hexValue high) = false := by
    rw [isLowSurrogate, Bool.and_eq_false_iff, decide_eq_false_iff_not, decide_eq_false_iff_not]
    omega
  have opens : isHighSurrogate (hexValue high) = true := by
    rw [isHighSurrogate, Bool.and_eq_true, decide_eq_true_iff, decide_eq_true_iff]
    omega
  have closes : isLowSurrogate (hexValue low) = true := by
    rw [isLowSurrogate, Bool.and_eq_true, decide_eq_true_iff, decide_eq_true_iff]
    omega
  have completed : surrogatePair (hexValue high) (hexValue low) = character := by
    rw [surrogatePair, isValue, Char.ofNat_toNat]
  have isBehind : (high ++ '\\' :: 'u' :: (low ++ rest)).drop 4 = '\\' :: 'u' :: (low ++ rest) :=
    List.drop_left' isHigh.1
  rw [readEscape, readHex4_append isHigh]
  simp only [Bool.not_true, Bool.false_eq_true, if_false, noLow, opens, if_true, isBehind]
  rw [readLowSurrogate, readHex4_append isLow]
  simp only [closes, if_true, completed]

end escapes

section bodies

/-- What a character is spelled by is read as that character. -/
theorem readStringFrom_append_of_spellsOne (spells : SpellsOne character piece) (text : Text) :
    readStringFrom true 0 (piece ++ text) = consRead character (readStringFrom true 0 text) := by
  cases spells with
  | unescaped isUnescaped => exact readStringFrom_unescaped isUnescaped text
  | short isShort => exact readStringFrom_escape (readEscape_short isShort text)
  | @unit digits isUnit isValue =>
      have isBehind : ('u' :: (digits ++ text)).drop 5 = text := List.drop_left' isUnit.1
      rw [List.cons_append, List.cons_append,
        readStringFrom_escape (readEscape_unit isUnit isValue text), isBehind]
  | @pair high low isHigh isLow atLeast atMost atLeast' atMost' isValue =>
      have isRead := readEscape_pair isHigh isLow ⟨atLeast, atMost⟩ ⟨atLeast', atMost'⟩ isValue text
      have isLong : ('u' :: (high ++ '\\' :: 'u' :: low)).length = 11 := by
        rw [List.length_cons, List.length_append, List.length_cons, List.length_cons, isHigh.1,
          isLow.1]
      have isBehind : ('u' :: (high ++ '\\' :: 'u' :: (low ++ text))).drop 11 = text := by
        have isJoined : 'u' :: (high ++ '\\' :: 'u' :: (low ++ text)) =
            'u' :: (high ++ '\\' :: 'u' :: low) ++ text := by simp
        rw [isJoined]
        exact List.drop_left' isLong
      have isWhole : '\\' :: 'u' :: high ++ '\\' :: 'u' :: low ++ text =
          '\\' :: 'u' :: (high ++ '\\' :: 'u' :: (low ++ text)) := by simp
      rw [isWhole, readStringFrom_escape isRead, isBehind]

/-- A spelled text up to its closing quote is read as that text. -/
theorem readStringBody_of_spells (spells : Spells value spelled) (rest : Text) :
    readStringBody (spelled ++ '"' :: rest) = .ok (value, rest) := by
  rw [readStringBody]
  induction spells with
  | nil => rfl
  | cons spellsOne _ ih =>
      rw [List.append_assoc, readStringFrom_append_of_spellsOne spellsOne, ih]
      rfl

/-- A piece of a string that is skipped counts as one character. -/
theorem readStringFrom_append_of_isPiece (isPiece : IsPiece piece) (text : Text) :
    ∃ character, readStringFrom false 0 (piece ++ text) =
      consRead character (readStringFrom false 0 text) := by
  cases isPiece with
  | unescaped isUnescaped => exact ⟨_, readStringFrom_unescaped isUnescaped text⟩
  | short isShort => exact ⟨_, readStringFrom_escape (readEscape_short isShort text)⟩
  | @unit digits isUnit =>
      have isBehind : ('u' :: (digits ++ text)).drop 5 = text := List.drop_left' isUnit.1
      refine ⟨'?', ?_⟩
      rw [List.cons_append, List.cons_append,
        readStringFrom_escape (readEscape_skipped isUnit text), isBehind]

/-- What stands within quotes is skipped up to the closing one. -/
theorem skipStringBody_of_isSpelling (isSpelling : IsSpelling spelled) (rest : Text) :
    skipStringBody (spelled ++ '"' :: rest) = .ok rest := by
  have isRead : ∃ value, readStringFrom false 0 (spelled ++ '"' :: rest) = .ok (value, rest) := by
    induction isSpelling with
    | nil => exact ⟨[], rfl⟩
    | cons isPiece _ ih =>
        rcases ih with ⟨value, isRead⟩
        rcases readStringFrom_append_of_isPiece isPiece (_ ++ '"' :: rest) with ⟨character, isOne⟩
        rw [List.append_assoc, isOne, isRead]
        exact ⟨character :: value, rfl⟩
  rcases isRead with ⟨value, isRead⟩
  rw [skipStringBody, isRead]
  rfl

end bodies

section compact

/-- The compact form of a character spells it. -/
theorem spellsOne_escapedChar (character : Char) :
    SpellsOne character (escapedChar character) := by
  unfold escapedChar
  split
  case h_8 noQuote noBackslash _ _ _ _ _ =>
    split_ifs with isControl
    · have spelled : ∀ unit < 0x20,
          ['0', '0', hexDigit (unit / 16), hexDigit (unit % 16)].all isHexDigit = true ∧
            hexValue ['0', '0', hexDigit (unit / 16), hexDigit (unit % 16)] = unit := by decide
      have isUnit := spelled character.toNat isControl
      exact .unit ⟨rfl, List.all_eq_true.1 isUnit.1⟩ isUnit.2
    · exact .unescaped ⟨Nat.not_lt.1 isControl, noQuote, noBackslash⟩
  all_goals exact .short (by decide)

/-- The compact form of a text spells it. -/
theorem spells_escaped (value : Text) : Spells value (value.flatMap escapedChar) := by
  induction value with
  | nil => exact .nil
  | cons character value ih => exact .cons (spellsOne_escapedChar character) ih

end compact

end CompiledViews.Json
