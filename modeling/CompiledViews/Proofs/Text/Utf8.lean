import CompiledViews.Proofs.Text.Slices
import Mathlib.Data.List.Induction

/-!
# Bytes of texts

The bytes of a text are decoded to the characters of that text, so different texts have different
bytes. Bytes that are no text consist of characters and of invalid parts. An invalid part goes on
for as long as it may be the beginning of a character, and it is shown as one replacement character.
-/

namespace CompiledViews

namespace Utf8

variable {byte : Nat}

theorem decodeFrom_cons (state : State) (byte : UInt8) (bytes : Bytes) :
    decodeFrom state (byte :: bytes) =
      (step byte.toNat state).1 ++ decodeFrom (step byte.toNat state).2 bytes := rfl

theorem start_eq (byte : Nat) : step byte .between = start byte := rfl

theorem start_of_ascii (ascii : byte < 0x80) :
    start byte = ([.scalar (Char.ofNat byte)], .between) := if_pos ascii

theorem start_of_two (low : 0xC2 ≤ byte) (high : byte < 0xE0) :
    start byte = ([], .inside (byte - 0xC0) 1 0x80 0xBF) := by
  rw [start, if_neg (by omega), if_neg (by omega), if_pos high]

theorem start_of_three (low : 0xE0 ≤ byte) (high : byte < 0xF0) :
    start byte = ([], .inside (byte - 0xE0) 2 (if byte = 0xE0 then 0xA0 else 0x80)
      (if byte = 0xED then 0x9F else 0xBF)) := by
  rw [start, if_neg (by omega), if_neg (by omega), if_neg (by omega), if_pos high]

theorem start_of_four (low : 0xF0 ≤ byte) (high : byte < 0xF5) :
    start byte = ([], .inside (byte - 0xF0) 3 (if byte = 0xF0 then 0x90 else 0x80)
      (if byte = 0xF4 then 0x8F else 0xBF)) := by
  rw [start, if_neg (by omega), if_neg (by omega), if_neg (by omega), if_neg (by omega),
    if_pos high]

theorem step_of_last {value lowest highest : Nat} (low : lowest ≤ byte) (high : byte ≤ highest) :
    step byte (.inside value 1 lowest highest) =
      ([.scalar (Char.ofNat (value * 0x40 + (byte - 0x80)))], .between) :=
  if_pos ⟨low, high⟩

theorem step_of_inner {value left lowest highest : Nat} (low : lowest ≤ byte)
    (high : byte ≤ highest) (more : 1 < left) :
    step byte (.inside value left lowest highest) =
      ([], .inside (value * 0x40 + (byte - 0x80)) (left - 1) 0x80 0xBF) := by
  rw [step, if_pos ⟨low, high⟩]
  exact if_neg (Nat.not_le.2 more)

theorem toNat_ofNat_byte {value : Nat} (small : value < 0x100) :
    (UInt8.ofNat value).toNat = value := by
  rw [UInt8.toNat_ofNat']
  omega

/-- The bytes of a character are decoded to it, whatever follows them. -/
theorem decodeFrom_utf8EncodeChar (character : Char) (bytes : Bytes) :
    decodeFrom .between (String.utf8EncodeChar character ++ bytes) =
      .scalar character :: decodeFrom .between bytes := by
  have isScalar : character.val.toNat < 0xD800 ∨
      0xDFFF < character.val.toNat ∧ character.val.toNat < 0x110000 := character.valid
  have decoded {value : Nat} (same : value = character.val.toNat) :
      Char.ofNat value = character := by
    rw [same]
    exact Char.ofNat_toNat character
  unfold String.utf8EncodeChar
  simp only
  generalize character.val.toNat = value at isScalar decoded
  split_ifs with one two three
  · simp only [List.cons_append, List.nil_append]
    rw [decodeFrom_cons, toNat_ofNat_byte (by omega), start_eq, start_of_ascii (by omega),
      decoded rfl]
    rfl
  · simp only [List.cons_append, List.nil_append]
    rw [decodeFrom_cons, toNat_ofNat_byte (by omega), start_eq,
      start_of_two (by omega) (by omega), List.nil_append, decodeFrom_cons,
      toNat_ofNat_byte (by omega), step_of_last (by omega) (by omega), decoded (by omega)]
    rfl
  · simp only [List.cons_append, List.nil_append]
    rw [decodeFrom_cons, toNat_ofNat_byte (by omega), start_eq,
      start_of_three (by omega) (by omega), List.nil_append, decodeFrom_cons,
      toNat_ofNat_byte (by omega),
      step_of_inner (by split_ifs <;> omega) (by split_ifs <;> omega) (by omega),
      List.nil_append, decodeFrom_cons, toNat_ofNat_byte (by omega),
      step_of_last (by omega) (by omega), decoded (by omega)]
    rfl
  · simp only [List.cons_append, List.nil_append]
    rw [decodeFrom_cons, toNat_ofNat_byte (by omega), start_eq,
      start_of_four (by omega) (by omega), List.nil_append, decodeFrom_cons,
      toNat_ofNat_byte (by omega),
      step_of_inner (by split_ifs <;> omega) (by split_ifs <;> omega) (by omega),
      List.nil_append, decodeFrom_cons, toNat_ofNat_byte (by omega),
      step_of_inner (by omega) (by omega) (by omega),
      List.nil_append, decodeFrom_cons, toNat_ofNat_byte (by omega),
      step_of_last (by omega) (by omega), decoded (by omega)]
    rfl

theorem decode_utf8 (text : Text) : decode (Text.utf8 text) = text.map Piece.scalar := by
  induction text with
  | nil => rfl
  | cons character text ih =>
      rw [Text.utf8_cons, decode, decodeFrom_utf8EncodeChar, List.map_cons]
      exact congrArg _ ih

/-- The bytes of a text are text throughout, and that text. -/
theorem text?_utf8 (text : Text) : text? (Text.utf8 text) = some text := by
  rw [text?, decode_utf8]
  induction text with
  | nil => rfl
  | cons character text ih => simp [List.mapM_cons, ih, Piece.scalar?]

section parts

variable {part rest more bytes : Bytes} {byte : UInt8} {text : Text}
  {value left lowest highest : Nat}

/-- Whether some character begins with bytes. -/
def Begins (part : Bytes) : Prop :=
  ∃ character rest, String.utf8EncodeChar character = part ++ rest

/-- The invalid parts in front of bytes: a byte that no character begins with, or all that there is
of a character that does not go on. -/
inductive IsInvalid (rest : Bytes) : Bytes → Prop
  | stray {byte : UInt8} (none : ¬Begins [byte]) : IsInvalid rest [byte]
  | broken {part : Bytes} (nonempty : part ≠ []) (begins : Begins part)
      (incomplete : ∀ character, String.utf8EncodeChar character ≠ part)
      (ends : ∀ byte, rest.head? = some byte → ¬Begins (part ++ [byte])) : IsInvalid rest part

/-- The texts that show bytes: their characters, and a replacement character for each invalid
part. -/
inductive Shows : Text → Bytes → Prop
  | nil : Shows [] []
  | cons (character : Char) {text : Text} {rest : Bytes} (shown : Shows text rest) :
      Shows (character :: text) (String.utf8EncodeChar character ++ rest)
  | replaced {text : Text} {part rest : Bytes} (isInvalid : IsInvalid rest part)
      (shown : Shows text rest) : Shows ('\uFFFD' :: text) (part ++ rest)

theorem Begins.of_append (begins : Begins (part ++ more)) : Begins part := by
  rcases begins with ⟨character, rest, encoded⟩
  exact ⟨character, more ++ rest, by rw [encoded, List.append_assoc]⟩

/-- What a character may begin with goes on until it no longer may. -/
theorem Begins.exists_longest (begins : Begins part) (bytes : Bytes) :
    ∃ more rest, bytes = more ++ rest ∧ Begins (part ++ more) ∧
      ∀ byte, rest.head? = some byte → ¬Begins (part ++ more ++ [byte]) := by
  induction bytes generalizing part with
  | nil => exact ⟨[], [], rfl, by simpa using begins, by simp⟩
  | cons byte bytes ih =>
      by_cases next : Begins (part ++ [byte])
      · rcases ih next with ⟨more, rest, rfl, longer, ends⟩
        exact ⟨byte :: more, rest, rfl, by simpa using longer, by simpa using ends⟩
      · exact ⟨[], byte :: bytes, rfl, by simpa using begins, by simpa using next⟩

/-- Bytes begin with a character or with an invalid part. -/
theorem exists_front (byte : UInt8) (bytes : Bytes) :
    ∃ part rest, byte :: bytes = part ++ rest ∧ part ≠ [] ∧
      ((∃ character, String.utf8EncodeChar character = part) ∨ IsInvalid rest part) := by
  by_cases begins : Begins [byte]
  · rcases begins.exists_longest bytes with ⟨more, rest, rfl, longer, ends⟩
    refine ⟨byte :: more, rest, rfl, List.cons_ne_nil _ _, ?_⟩
    by_cases complete : ∃ character, String.utf8EncodeChar character = byte :: more
    · exact .inl complete
    · exact .inr (.broken (List.cons_ne_nil _ _) longer (not_exists.1 complete) ends)
  · exact ⟨[byte], bytes, rfl, List.cons_ne_nil _ _, .inr (.stray begins)⟩

theorem exists_shows (bytes : Bytes) : ∃ text, Shows text bytes := by
  induction size : bytes.length using Nat.strongRecOn generalizing bytes with
  | ind count ih =>
      cases bytes with
      | nil => exact ⟨[], .nil⟩
      | cons byte bytes =>
          rcases exists_front byte bytes with ⟨part, rest, split, nonempty, front⟩
          have shorter : rest.length < count := by
            have positive := List.length_pos_of_ne_nil nonempty
            rw [← size, split, List.length_append]
            omega
          rcases ih _ shorter rest rfl with ⟨text, shown⟩
          rw [split]
          rcases front with ⟨character, rfl⟩ | isInvalid
          · exact ⟨character :: text, .cons character shown⟩
          · exact ⟨'\uFFFD' :: text, .replaced isInvalid shown⟩

theorem toNat_val_ofNat {number : Nat}
    (isScalar : number < 0xD800 ∨ 0xDFFF < number ∧ number < 0x110000) :
    (Char.ofNat number).val.toNat = number := by
  have isValid : number.isValidChar := isScalar
  rw [Char.ofNat, dif_pos isValid]
  rfl

/-- The beginnings of characters that go on, with what a decoder behind them is inside of. -/
inductive Unfinished : Bytes → Nat → Nat → Nat → Nat → Prop
  | two {byte : UInt8} (low : 0xC2 ≤ byte.toNat) (high : byte.toNat < 0xE0) :
      Unfinished [byte] (byte.toNat - 0xC0) 1 0x80 0xBF
  | three {byte : UInt8} (low : 0xE0 ≤ byte.toNat) (high : byte.toNat < 0xF0) :
      Unfinished [byte] (byte.toNat - 0xE0) 2 (if byte.toNat = 0xE0 then 0xA0 else 0x80)
        (if byte.toNat = 0xED then 0x9F else 0xBF)
  | four {byte : UInt8} (low : 0xF0 ≤ byte.toNat) (high : byte.toNat < 0xF5) :
      Unfinished [byte] (byte.toNat - 0xF0) 3 (if byte.toNat = 0xF0 then 0x90 else 0x80)
        (if byte.toNat = 0xF4 then 0x8F else 0xBF)
  | next {part : Bytes} {value left lowest highest : Nat} {byte : UInt8}
      (unfinished : Unfinished part value (left + 2) lowest highest)
      (low : lowest ≤ byte.toNat) (high : byte.toNat ≤ highest) :
      Unfinished (part ++ [byte]) (value * 0x40 + (byte.toNat - 0x80)) (left + 1) 0x80 0xBF

namespace Unfinished

theorem left_le (unfinished : Unfinished part value left lowest highest) : left ≤ 3 := by
  induction unfinished with
  | two | three | four => decide
  | next _ _ _ ih => omega

theorem left_pos (unfinished : Unfinished part value left lowest highest) : 0 < left := by
  cases unfinished <;> omega

theorem bounds (unfinished : Unfinished part value left lowest highest) :
    0x80 ≤ lowest ∧ lowest ≤ highest ∧ highest < 0x100 := by
  cases unfinished <;> (try split_ifs) <;> omega

/-- A decoder in front of a beginning gets behind it without a piece. -/
theorem decodeFrom_append (unfinished : Unfinished part value left lowest highest) (rest : Bytes) :
    decodeFrom .between (part ++ rest) =
      decodeFrom (.inside value left lowest highest) rest := by
  induction unfinished generalizing rest with
  | two low high =>
      rw [List.singleton_append, decodeFrom_cons, start_eq, start_of_two low high,
        List.nil_append]
  | three low high =>
      rw [List.singleton_append, decodeFrom_cons, start_eq, start_of_three low high,
        List.nil_append]
  | four low high =>
      rw [List.singleton_append, decodeFrom_cons, start_eq, start_of_four low high,
        List.nil_append]
  | next _ low high ih =>
      rw [List.append_assoc, ih, List.singleton_append, decodeFrom_cons,
        step_of_inner low high (by omega), List.nil_append]
      rfl

/-- The last byte of a character finishes it. -/
theorem utf8EncodeChar_eq (unfinished : Unfinished part value 1 lowest highest)
    (low : lowest ≤ byte.toNat) (high : byte.toNat ≤ highest) :
    String.utf8EncodeChar (Char.ofNat (value * 0x40 + (byte.toNat - 0x80))) = part ++ [byte] := by
  have isByte {number : Nat} {byte : UInt8} (same : number = byte.toNat) :
      UInt8.ofNat number = byte := by
    rw [same, UInt8.ofNat_toNat]
  unfold String.utf8EncodeChar
  cases unfinished with
  | two =>
      rw [toNat_val_ofNat (by omega)]
      simp only [List.cons_append, List.nil_append]
      rw [if_neg (by omega), if_pos (by omega)]
      simp only [List.cons.injEq, and_true]
      exact ⟨isByte (by omega), isByte (by omega)⟩
  | next unfinished low' high' =>
      cases unfinished with
      | three =>
          split_ifs at low' high' <;>
          · rw [toNat_val_ofNat (by omega)]
            simp only [List.cons_append, List.nil_append]
            rw [if_neg (by omega), if_neg (by omega), if_pos (by omega)]
            simp only [List.cons.injEq, and_true]
            exact ⟨isByte (by omega), isByte (by omega), isByte (by omega)⟩
      | next unfinished low'' high'' =>
          cases unfinished with
          | four =>
              split_ifs at low'' high'' <;>
              · rw [toNat_val_ofNat (by omega)]
                simp only [List.cons_append, List.nil_append]
                rw [if_neg (by omega), if_neg (by omega), if_neg (by omega)]
                simp only [List.cons.injEq, and_true]
                exact ⟨isByte (by omega), isByte (by omega), isByte (by omega), isByte (by omega)⟩
          | next unfinished _ _ =>
              have tooLong := unfinished.left_le
              omega

theorem begins_append (unfinished : Unfinished part value left lowest highest)
    (low : lowest ≤ byte.toNat) (high : byte.toNat ≤ highest) : Begins (part ++ [byte]) := by
  induction left generalizing part value lowest highest byte with
  | zero => exact absurd unfinished.left_pos (Nat.lt_irrefl 0)
  | succ left ih =>
      cases left with
      | zero =>
          have encoded := unfinished.utf8EncodeChar_eq low high
          exact ⟨_, [], encoded.trans (List.append_nil _).symm⟩
      | succ left =>
          have longer : Begins (part ++ [byte] ++ [0x80]) :=
            ih (unfinished.next low high) (by decide) (by decide)
          exact longer.of_append

theorem begins (unfinished : Unfinished part value left lowest highest) : Begins part := by
  have bounds := unfinished.bounds
  have isByte : (UInt8.ofNat lowest).toNat = lowest := toNat_ofNat_byte (by omega)
  have longer : Begins (part ++ [.ofNat lowest]) :=
    unfinished.begins_append (by omega) (by omega)
  exact longer.of_append

end Unfinished

/-- What a byte does between characters. -/
theorem start_cases (byte : UInt8) :
    byte.toNat < 0x80 ∨ (∃ value left lowest highest, Unfinished [byte] value left lowest highest) ∨
      start byte.toNat = ([.invalid], .between) := by
  rcases Nat.lt_or_ge byte.toNat 0x80 with ascii | _
  · exact .inl ascii
  rcases Nat.lt_or_ge byte.toNat 0xC2 with low | two
  · exact .inr (.inr (by rw [start, if_neg (by omega), if_pos low]))
  rcases Nat.lt_or_ge byte.toNat 0xE0 with isTwo | three
  · exact .inr (.inl ⟨_, _, _, _, .two two isTwo⟩)
  rcases Nat.lt_or_ge byte.toNat 0xF0 with isThree | four
  · exact .inr (.inl ⟨_, _, _, _, .three three isThree⟩)
  rcases Nat.lt_or_ge byte.toNat 0xF5 with isFour | high
  · exact .inr (.inl ⟨_, _, _, _, .four four isFour⟩)
  · refine .inr (.inr ?_)
    rw [start, if_neg (by omega), if_neg (by omega), if_neg (by omega), if_neg (by omega),
      if_neg (by omega)]

/-- No character begins with what a decoder finds invalid. -/
theorem not_begins_of_head (isInvalid : ∀ more,
    (decodeFrom .between (part ++ more)).head? = some .invalid) : ¬Begins part := by
  rintro ⟨character, rest, encoded⟩
  have decoded := decodeFrom_utf8EncodeChar character []
  rw [List.append_nil, encoded] at decoded
  have found := isInvalid rest
  rw [decoded] at found
  cases found

theorem step_of_outside (outside : ¬(lowest ≤ byte.toNat ∧ byte.toNat ≤ highest)) :
    step byte.toNat (.inside value left lowest highest) =
      (.invalid :: (start byte.toNat).1, (start byte.toNat).2) := if_neg outside

/-- A decoder never takes a byte without a piece and stays between characters. -/
theorem step_ne (byte : Nat) (state : State) :
    (step byte state).1 ≠ [] ∨ (step byte state).2 ≠ .between := by
  cases state <;> simp only [step, start] <;> split_ifs <;> simp

theorem decodeFrom_ne_nil {state : State} (unread : state ≠ .between ∨ bytes ≠ []) :
    decodeFrom state bytes ≠ [] := by
  induction bytes generalizing state with
  | nil =>
      cases state with
      | between => simp at unread
      | inside value left lowest highest => exact List.cons_ne_nil _ _
  | cons byte bytes ih =>
      intro isEmpty
      rcases List.append_eq_nil_iff.1 isEmpty with ⟨noPiece, noRest⟩
      rcases step_ne byte.toNat state with piece | inside
      · exact piece noPiece
      · exact ih (.inl inside) noRest

theorem utf8EncodeChar_ascii (ascii : byte.toNat < 0x80) :
    String.utf8EncodeChar (Char.ofNat byte.toNat) = [byte] := by
  have isByte : (Char.ofNat byte.toNat).toNat = byte.toNat :=
    toNat_val_ofNat (.inl (by omega))
  rw [Text.utf8_of_ascii (by omega), isByte, UInt8.ofNat_toNat]

/-- What begins a character and is none leaves a decoder inside of one. -/
theorem Begins.exists_unfinished (begins : Begins part) (nonempty : part ≠ [])
    (incomplete : ∀ character, String.utf8EncodeChar character ≠ part) :
    ∃ value left lowest highest, Unfinished part value left lowest highest := by
  induction part using List.reverseRecOn with
  | nil => exact absurd rfl nonempty
  | append_singleton part byte ih =>
      by_cases isFirst : part = []
      · subst isFirst
        rcases start_cases byte with ascii | unfinished | invalid
        · exact absurd (utf8EncodeChar_ascii ascii) (incomplete _)
        · exact unfinished
        · refine absurd begins (not_begins_of_head fun more => ?_)
          rw [List.nil_append, List.singleton_append, decodeFrom_cons, start_eq, invalid]
          rfl
      · have incomplete' (character : Char) : String.utf8EncodeChar character ≠ part := by
          rintro rfl
          rcases begins with ⟨other, more, encoded⟩
          have decoded := decodeFrom_utf8EncodeChar other []
          rw [List.append_nil, encoded, List.append_assoc, decodeFrom_utf8EncodeChar] at decoded
          exact decodeFrom_ne_nil (.inr (by simp)) (List.cons.inj decoded).2
        rcases ih begins.of_append isFirst incomplete' with
          ⟨value, left, lowest, highest, unfinished⟩
        by_cases inside : lowest ≤ byte.toNat ∧ byte.toNat ≤ highest
        · cases left with
          | zero => exact absurd unfinished.left_pos (Nat.lt_irrefl 0)
          | succ left =>
              cases left with
              | zero => exact absurd (unfinished.utf8EncodeChar_eq inside.1 inside.2) (incomplete _)
              | succ left => exact ⟨_, _, _, _, unfinished.next inside.1 inside.2⟩
        · refine absurd begins (not_begins_of_head fun more => ?_)
          rw [List.append_assoc, unfinished.decodeFrom_append, List.singleton_append,
            decodeFrom_cons, step_of_outside inside]
          rfl

/-- An invalid part is decoded to one piece. -/
theorem IsInvalid.decodeFrom_append (isInvalid : IsInvalid rest part) :
    decodeFrom .between (part ++ rest) = .invalid :: decodeFrom .between rest := by
  cases isInvalid with
  | @stray byte none =>
      rcases start_cases byte with ascii | ⟨_, _, _, _, unfinished⟩ | invalid
      · exact absurd ⟨_, [], (utf8EncodeChar_ascii ascii).trans (List.append_nil _).symm⟩ none
      · exact absurd unfinished.begins none
      · rw [List.singleton_append, decodeFrom_cons, start_eq, invalid]
        rfl
  | broken nonempty begins incomplete ends =>
      rcases begins.exists_unfinished nonempty incomplete with
        ⟨_, _, lowest, highest, unfinished⟩
      rw [unfinished.decodeFrom_append]
      cases rest with
      | nil => rfl
      | cons byte rest =>
          have outside : ¬(lowest ≤ byte.toNat ∧ byte.toNat ≤ highest) := by
            rintro ⟨low, high⟩
            exact ends byte rfl (unfinished.begins_append low high)
          rw [decodeFrom_cons, step_of_outside outside]
          rfl

/-- Bytes are shown by one text: that of their characters, with a replacement character for each of
their invalid parts. -/
theorem shows_iff : Shows text bytes ↔ lossyText bytes = text := by
  have shown {text : Text} {bytes : Bytes} (shows' : Shows text bytes) :
      lossyText bytes = text := by
    induction shows' with
    | nil => rfl
    | cons character _ ih =>
        rw [lossyText, decode, decodeFrom_utf8EncodeChar, List.map_cons]
        exact congrArg _ ih
    | replaced isInvalid _ ih =>
        rw [lossyText, decode, isInvalid.decodeFrom_append, List.map_cons]
        exact congrArg _ ih
  constructor
  · exact shown
  · rintro rfl
    rcases exists_shows bytes with ⟨text, isShown⟩
    rwa [shown isShown]

theorem lossyText_utf8 (text : Text) : lossyText (Text.utf8 text) = text := by
  rw [lossyText, decode_utf8, List.map_map]
  exact List.map_id text

end parts
end Utf8

theorem Text.utf8_injective : Function.Injective Text.utf8 := by
  intro left right same
  have decoded := Utf8.text?_utf8 left
  rw [same, Utf8.text?_utf8] at decoded
  exact (Option.some.inj decoded).symm

end CompiledViews
