import CompiledViews.Proofs.Text.Parts
import CompiledViews.Text.Utf8

/-!
# Slices of texts

A place in a text may be given by the number of bytes before it. Not every number is a place: one
may point into the middle of a character, or behind the end. A slice between two numbers can be
taken only if both are places between characters, and in order.

An ASCII character is one byte, and the bytes of the others are none of those, so an ASCII character
is found at a place if its byte is.
-/

namespace CompiledViews.Text

/-- The place behind a text. -/
def size (text : Text) : Nat := (utf8 text).length

@[simp]
theorem utf8_nil : utf8 [] = [] := rfl

@[simp]
theorem utf8_cons (first : Char) (rest : Text) :
    utf8 (first :: rest) = String.utf8EncodeChar first ++ utf8 rest := rfl

@[simp]
theorem utf8_append (left right : Text) : utf8 (left ++ right) = utf8 left ++ utf8 right :=
  List.flatMap_append

@[simp]
theorem size_nil : size [] = 0 := rfl

@[simp]
theorem size_cons (first : Char) (rest : Text) :
    size (first :: rest) = first.utf8Size + size rest := by
  simp [size]

@[simp]
theorem size_append (left right : Text) : size (left ++ right) = size left + size right := by
  simp [size]

theorem size_eq_zero_iff {text : Text} : size text = 0 ↔ text = [] := by
  cases text with
  | nil => simp
  | cons first rest =>
      have positive := first.utf8Size_pos
      simp only [size_cons, reduceCtorEq, iff_false]
      omega

/-- The bytes of a text from a place on are those of what stands behind the place. -/
theorem getElem?_utf8_append (left right : Text) (index : Nat) :
    (utf8 (left ++ right))[size left + index]? = (utf8 right)[index]? := by
  have behind : (utf8 left).length ≤ size left + index := Nat.le_add_right ..
  rw [utf8_append, List.getElem?_append_right behind, size, Nat.add_sub_cancel_left]

section characters

variable {character : Char}

theorem utf8_of_ascii (ascii : character.toNat < 0x80) :
    String.utf8EncodeChar character = [UInt8.ofNat character.toNat] := by
  unfold String.utf8EncodeChar
  exact if_pos (Nat.le_of_lt_succ ascii)

theorem utf8Size_of_ascii (ascii : character.toNat < 0x80) : character.utf8Size = 1 := by
  rw [← String.length_utf8EncodeChar, utf8_of_ascii ascii]
  rfl

/-- No byte of a character beyond ASCII is one of an ASCII character. -/
theorem le_of_mem_utf8EncodeChar (beyond : 0x80 ≤ character.toNat) {byte : UInt8}
    (member : byte ∈ String.utf8EncodeChar character) : 0x80 ≤ byte.toNat := by
  have high (value : Nat) (small : value < 0x80) : 0x80 ≤ (UInt8.ofNat (value + 0x80)).toNat := by
    rw [UInt8.toNat_ofNat']
    omega
  unfold String.utf8EncodeChar at member
  have notAscii : ¬character.val.toNat ≤ 127 := Nat.not_le.2 beyond
  simp only [if_neg notAscii] at member
  split at member
  · simp only [List.mem_cons, List.not_mem_nil, or_false] at member
    rcases member with rfl | rfl
    · exact high (_ + 64) (by omega)
    · exact high _ (by omega)
  · split at member
    · simp only [List.mem_cons, List.not_mem_nil, or_false] at member
      rcases member with rfl | rfl | rfl
      · exact high (_ + 96) (by omega)
      · exact high _ (by omega)
      · exact high _ (by omega)
    · simp only [List.mem_cons, List.not_mem_nil, or_false] at member
      rcases member with rfl | rfl | rfl | rfl
      · exact high (_ + 112) (by omega)
      · exact high _ (by omega)
      · exact high _ (by omega)
      · exact high _ (by omega)

/-- The first byte of a character tells whether it is ASCII, and which one. No other byte of a
character is ASCII. -/
theorem exists_utf8EncodeChar (character : Char) : ∃ lead others,
    String.utf8EncodeChar character = lead :: others ∧ (∀ byte ∈ others, 0x80 ≤ byte.toNat) ∧
      (lead.toNat = character.toNat ∧ others = [] ∨
        0x80 ≤ lead.toNat ∧ 0x80 ≤ character.toNat) := by
  by_cases ascii : character.toNat < 0x80
  · refine ⟨_, [], utf8_of_ascii ascii, by simp, .inl ⟨?_, rfl⟩⟩
    rw [UInt8.toNat_ofNat']
    omega
  · have beyond : 0x80 ≤ character.toNat := Nat.le_of_not_lt ascii
    have nonempty : String.utf8EncodeChar character ≠ [] := by
      rw [← List.length_pos_iff, String.length_utf8EncodeChar]
      exact character.utf8Size_pos
    obtain ⟨lead, others, bytes⟩ := List.exists_cons_of_ne_nil nonempty
    have high : ∀ byte ∈ lead :: others, 0x80 ≤ byte.toNat := by
      intro byte member
      exact le_of_mem_utf8EncodeChar beyond (bytes ▸ member)
    obtain ⟨highLead, highOthers⟩ := List.forall_mem_cons.1 high
    exact ⟨lead, others, bytes, highOthers, .inr ⟨highLead, beyond⟩⟩

end characters

/-- The place of the first occurrence of a character. -/
def find? (mark : Char) : Text → Option Nat
  | [] => none
  | first :: rest => if first = mark then some 0 else (find? mark rest).map (first.utf8Size + ·)

/-- The place of the last occurrence of a character. -/
def findLast? (mark : Char) : Text → Option Nat
  | [] => none
  | first :: rest =>
    match findLast? mark rest with
    | some place => some (first.utf8Size + place)
    | none => if first = mark then some 0 else none

section find

variable {mark : Char} {left right text : Text}

theorem find?_eq_none (absent : mark ∉ text) : find? mark text = none := by
  induction text with
  | nil => rfl
  | cons first rest ih =>
      obtain ⟨differs, later⟩ := List.ne_and_not_mem_of_not_mem_cons absent
      rw [find?, if_neg differs.symm, ih later]
      rfl

theorem find?_append (absent : mark ∉ left) (right : Text) :
    find? mark (left ++ mark :: right) = some (size left) := by
  induction left with
  | nil => exact if_pos rfl
  | cons first rest ih =>
      obtain ⟨differs, later⟩ := List.ne_and_not_mem_of_not_mem_cons absent
      rw [List.cons_append, find?, if_neg differs.symm, ih later, size_cons]
      rfl

theorem findLast?_eq_none (absent : mark ∉ text) : findLast? mark text = none := by
  induction text with
  | nil => rfl
  | cons first rest ih =>
      obtain ⟨differs, later⟩ := List.ne_and_not_mem_of_not_mem_cons absent
      rw [findLast?, ih later]
      exact if_neg differs.symm

theorem findLast?_append (absent : mark ∉ right) (left : Text) :
    findLast? mark (left ++ mark :: right) = some (size left) := by
  induction left with
  | nil =>
      rw [List.nil_append, findLast?, findLast?_eq_none absent]
      exact if_pos rfl
  | cons first rest ih =>
      rw [List.cons_append, findLast?, ih, size_cons]

end find

/-- Bounds, counted in bytes, between which a text has no slice. -/
structure BadSlice where
  text : Text
  start : Nat
  stop : Nat
deriving DecidableEq, Repr

/-- The text before a number of bytes and the text behind them, if there is a place between two
characters. -/
def splitAt? : Nat → Text → Option (Text × Text)
  | 0, text => some ([], text)
  | _ + 1, [] => none
  | bytes + 1, first :: rest =>
    if first.utf8Size ≤ bytes + 1 then
      (splitAt? (bytes + 1 - first.utf8Size) rest).map fun (left, right) => (first :: left, right)
    else none

/-- The part of a text between two numbers of bytes. -/
def slice (text : Text) (start stop : Nat) : Except BadSlice Text :=
  match (splitAt? stop text).bind fun (front, _) => splitAt? start front with
  | some (_, part) => .ok part
  | none => .error ⟨text, start, stop⟩

theorem splitAt?_eq_some_iff {bytes : Nat} {text left right : Text} :
    splitAt? bytes text = some (left, right) ↔ text = left ++ right ∧ bytes = size left := by
  fun_induction splitAt? bytes text generalizing left right with
  | case1 text =>
      constructor
      · rintro ⟨⟩
        exact ⟨rfl, rfl⟩
      · rintro ⟨rfl, isEmpty⟩
        rw [size_eq_zero_iff.1 isEmpty.symm]
        rfl
  | case2 bytes =>
      simp only [reduceCtorEq, false_iff, not_and]
      intro isEmpty
      rw [(List.append_eq_nil_iff.1 isEmpty.symm).1]
      exact Nat.succ_ne_zero bytes
  | case3 bytes first rest fits ih =>
      rw [Option.map_eq_some_iff]
      constructor
      · rintro ⟨⟨front, back⟩, found, equal⟩
        obtain ⟨rfl, rfl⟩ := Prod.mk.inj equal
        obtain ⟨rfl, isSize⟩ := ih.1 found
        refine ⟨rfl, ?_⟩
        rw [size_cons, ← isSize]
        omega
      · rintro ⟨isText, isSize⟩
        rcases left with _ | ⟨head, left⟩
        · exact absurd isSize (Nat.succ_ne_zero bytes)
        · obtain ⟨rfl, rfl⟩ := List.cons.inj isText
          rw [size_cons] at isSize
          exact ⟨(left, right), ih.2 ⟨rfl, by omega⟩, rfl⟩
  | case4 bytes first rest tooLarge =>
      simp only [reduceCtorEq, false_iff, not_and]
      intro isText isSize
      rcases left with _ | ⟨head, left⟩
      · exact Nat.succ_ne_zero bytes isSize
      · obtain ⟨rfl, rfl⟩ := List.cons.inj isText
        rw [size_cons] at isSize
        omega

/-- A slice can be taken exactly if the text has it between its bounds. -/
theorem slice_eq_ok_iff {text part : Text} {start stop : Nat} :
    slice text start stop = .ok part ↔
      ∃ left right, text = left ++ part ++ right ∧ start = size left ∧
        stop = size (left ++ part) := by
  unfold slice
  constructor
  · intro taken
    split at taken
    case h_1 left piece found =>
      obtain rfl := Except.ok.inj taken
      obtain ⟨⟨front, right⟩, isFront, isPart⟩ := Option.bind_eq_some_iff.1 found
      obtain ⟨rfl, isStop⟩ := splitAt?_eq_some_iff.1 isFront
      obtain ⟨rfl, isStart⟩ := splitAt?_eq_some_iff.1 isPart
      exact ⟨left, right, rfl, isStart, isStop⟩
    case h_2 _ => cases taken
  · rintro ⟨left, right, rfl, rfl, rfl⟩
    have atStop : splitAt? (size (left ++ part)) (left ++ part ++ right) =
        some (left ++ part, right) := splitAt?_eq_some_iff.2 ⟨rfl, rfl⟩
    have atStart : splitAt? (size left) (left ++ part) = some (left, part) :=
      splitAt?_eq_some_iff.2 ⟨rfl, rfl⟩
    simp only [atStop, Option.bind_some, atStart]

end CompiledViews.Text
