import CompiledViews.Dump.Descriptor
import CompiledViews.Proofs.Dump.Machine
import CompiledViews.Proofs.Text.Exact
import CompiledViews.Proofs.Text.Slices

/-!
# Descriptors read byte by byte

The types of a descriptor can be told apart by its bytes alone: a reader that goes from place to
place looks at one byte to know which type begins there, and slices the text only for the name of a
class. A place may lie within a character then, or behind the end. Still every slice that is taken
begins and ends between characters, whatever the text is, and what is read is what decoding gives.
Each type takes at least one byte, so the reader comes to the end, and there are no more types than
bytes.
-/

namespace CompiledViews.Dump.Descriptor

open Text

namespace Bytewise

/-- The number of opening brackets from a place on. -/
def bracketsAt (text : Text) (place : Nat) : Nat :=
  (((utf8 text).drop place).takeWhile (· == 0x5B)).length

/-- The class whose letter stands at a place, and the place behind it. Its name goes up to the next
semicolon, and without one up to the end. -/
def classAt (text : Text) (first : Nat) : Except BadSlice (Text × Nat) := do
  let rest ← slice text first (size text)
  let stop := ((find? ';' rest).map (first + ·)).getD (size text)
  let name ← slice text (first + 1) stop
  pure (className name, stop + 1)

/-- The type without dimensions that begins at a place, and the place behind it. -/
def elementAt (text : Text) (first : Nat) : Except BadSlice (Text × Nat) :=
  match (utf8 text)[first]? with
  | none => .ok (unknownType, first + 1)
  | some byte =>
    if byte = 0x4C then classAt text first
    else .ok ((primitive? (Char.ofNat byte.toNat)).getD unknownType, first + 1)

/-- The type that begins at a place, and the place behind it. -/
def typeAt (text : Text) (place : Nat) : Except BadSlice (Text × Nat) :=
  let dimensions := bracketsAt text place
  (elementAt text (place + dimensions)).map fun (name, next) =>
    (name ++ arraySuffix dimensions, next)

theorem lt_of_elementAt {text name : Text} {first next : Nat}
    (found : elementAt text first = .ok (name, next)) : first < next := by
  unfold elementAt at found
  split at found
  · have isNext := (Prod.mk.inj (Except.ok.inj found)).2
    omega
  · next byte isByte =>
      have inside : first < size text := (List.getElem?_eq_some_iff.1 isByte).1
      split at found
      · obtain ⟨rest, -, found⟩ := bind_eq_ok_iff.1 found
        obtain ⟨name, -, found⟩ := bind_eq_ok_iff.1 found
        have isNext := (Prod.mk.inj (Except.ok.inj found)).2
        cases isOffset : find? ';' rest with
        | none =>
            rw [isOffset, Option.map_none, Option.getD_none] at isNext
            omega
        | some offset =>
            rw [isOffset, Option.map_some, Option.getD_some] at isNext
            omega
      · have isNext := (Prod.mk.inj (Except.ok.inj found)).2
        omega

/-- Each type ends behind the place at which it begins. -/
theorem lt_of_typeAt {text shown : Text} {place next : Nat}
    (found : typeAt text place = .ok (shown, next)) : place < next := by
  obtain ⟨⟨name, behind⟩, isElement, equal⟩ := map_eq_ok_iff.1 found
  obtain rfl := (Prod.mk.inj equal).2
  have advances := lt_of_elementAt isElement
  omega

/-- The types from a place on, one after the other. -/
def typesFrom (text : Text) (place : Nat) : Except BadSlice (List Text) :=
  if place < size text then
    match found : typeAt text place with
    | .error bad => .error bad
    | .ok (shown, next) =>
      have _ : place < next := lt_of_typeAt found
      (typesFrom text next).map (shown :: ·)
  else .ok []
termination_by size text - place

/-- The return type and the parameter types of a method, as `decode` gives them. -/
def read (descriptor : Text) : Except BadSlice (Option (Text × List Text)) :=
  match find? '(' descriptor, findLast? ')' descriptor with
  | some opening, some closing =>
    if closing < opening then .ok none
    else do
      let parameters ← slice descriptor (opening + 1) closing
      let shown ← typesFrom parameters 0
      let result ← slice descriptor (closing + 1) (size descriptor)
      if result = [] then pure none
      else do
        let (name, _) ← typeAt result 0
        pure (some (name, shown))
  | _, _ => .ok none

theorem typesFrom_of_le {text : Text} {place : Nat} (behind : size text ≤ place) :
    typesFrom text place = .ok [] := by
  rw [typesFrom, if_neg (Nat.not_lt.2 behind)]

theorem typesFrom_of_typeAt {text shown : Text} {place next : Nat} (inside : place < size text)
    (found : typeAt text place = .ok (shown, next)) :
    typesFrom text place = (typesFrom text next).map (shown :: ·) := by
  rw [typesFrom, if_pos inside]
  split
  · next bad isBad => simp [found] at isBad
  · next other behind isType =>
      obtain ⟨rfl, rfl⟩ := Prod.mk.inj (Except.ok.inj (found.symm.trans isType))
      rfl

/-- There are no more types than bytes. -/
theorem length_le_of_typesFrom {text : Text} {place : Nat} {types : List Text}
    (found : typesFrom text place = .ok types) : types.length ≤ size text - place := by
  fun_induction typesFrom text place generalizing types with
  | case1 place inside bad isBad => cases found
  | case2 place inside shown next isType advances ih =>
      obtain ⟨others, isOthers, rfl⟩ := map_eq_ok_iff.1 found
      have fewer := ih isOthers
      rw [List.length_cons]
      omega
  | case3 place behind =>
      obtain rfl := Except.ok.inj found
      exact Nat.zero_le _

/-- At a place there are some bytes from within a character, and behind them the rest of the text.
Behind a type that is cut short by the end, the place may be behind the end as well. -/
structure LeavesAt (text : Text) (place count : Nat) (rest : Text) : Prop where
  within : ∀ index < count, ∃ byte, (utf8 text)[place + index]? = some byte ∧ 0x80 ≤ byte.toNat
  behind : (∃ front, text = front ++ rest ∧ place + count = size front) ∨
    rest = [] ∧ size text ≤ place + count

section bytes

variable {character : Char}

theorem primitive?_eq_none (beyond : 0x80 ≤ character.toNat) : primitive? character = none := by
  unfold primitive?
  split
  case h_10 => rfl
  all_goals
    revert beyond
    decide

theorem le_toNat_ofNat {byte : UInt8} (high : 0x80 ≤ byte.toNat) :
    0x80 ≤ (Char.ofNat byte.toNat).toNat := by
  have valid : byte.toNat.isValidChar := .inl (byte.toNat_lt.trans (by decide))
  rw [Char.ofNat, dif_pos valid]
  exact high

/-- The first byte of a character stands for the primitive type that the character stands for. -/
theorem primitive?_lead {lead : UInt8} {others : List UInt8}
    (leads : lead.toNat = character.toNat ∧ others = [] ∨
      0x80 ≤ lead.toNat ∧ 0x80 ≤ character.toNat) :
    primitive? (Char.ofNat lead.toNat) = primitive? character := by
  rcases leads with ⟨same, -⟩ | ⟨high, beyond⟩
  · rw [same, Char.ofNat_toNat]
  · rw [primitive?_eq_none beyond, primitive?_eq_none (le_toNat_ofNat high)]

end bytes

theorem utf8_brackets (count : Nat) :
    utf8 (List.replicate count '[') = List.replicate count 0x5B := by
  induction count with
  | zero => rfl
  | succ count ih =>
      rw [List.replicate_succ, utf8_cons, ih]
      rfl

theorem bracketsAt_append (left : Text) (dimensions : Nat) {right : Text}
    (noBracket : right.head? ≠ some '[') :
    bracketsAt (left ++ (List.replicate dimensions '[' ++ right)) (size left) = dimensions := by
  have none : (utf8 right).takeWhile (· == 0x5B) = [] := by
    cases right with
    | nil => rfl
    | cons first rest =>
        obtain ⟨lead, others, bytes, -, leads⟩ := exists_utf8EncodeChar first
        have differs : lead ≠ 0x5B := by
          rintro rfl
          rcases leads with ⟨same, -⟩ | ⟨high, -⟩
          · exact noBracket (by rw [List.head?_cons, ← Char.ofNat_toNat first, ← same]; rfl)
          · exact absurd high (by decide)
        rw [utf8_cons, bytes, List.cons_append]
        simp [differs]
  rw [bracketsAt, utf8_append, size, List.drop_left, utf8_append, utf8_brackets,
    List.takeWhile_append_of_pos (by simp), none, List.append_nil, List.length_replicate]

/-- The name of a class ends where the first semicolon stands, or where the text ends. -/
theorem classAt_append (left : Text) {name rest : Text} (absent : ';' ∉ name)
    (ends : rest = [] ∨ ∃ after, rest = ';' :: after) :
    classAt (left ++ 'L' :: (name ++ rest)) (size left) =
        .ok (className name, size (left ++ 'L' :: name) + 1) ∧
      LeavesAt (left ++ 'L' :: (name ++ rest)) (size (left ++ 'L' :: name) + 1) 0
        (rest.drop 1) := by
  let text := left ++ 'L' :: (name ++ rest)
  have letter : size ['L'] = 1 := by decide
  have mark : size [';'] = 1 := by decide
  have noMark : ';' ∉ 'L' :: name := by simpa using absent
  have sliced : slice text (size left) (size text) = .ok ('L' :: (name ++ rest)) :=
    slice_eq_ok_iff.2 ⟨left, [], by simp [text], rfl, rfl⟩
  have named : slice text (size left + 1) (size (left ++ 'L' :: name)) = .ok name := by
    refine slice_eq_ok_iff.2 ⟨left ++ ['L'], rest, by simp [text], ?_, by simp⟩
    rw [size_append, letter]
  have isStop : ((find? ';' ('L' :: (name ++ rest))).map (size left + ·)).getD (size text) =
      size (left ++ 'L' :: name) := by
    rcases ends with rfl | ⟨after, rfl⟩
    · rw [List.append_nil, find?_eq_none noMark]
      simp [text]
    · rw [← List.cons_append, find?_append noMark]
      simp
  constructor
  · change (slice text (size left) (size text) >>= _) = _
    rw [sliced]
    change (slice text (size left + 1) _ >>= _) = _
    rw [isStop, named]
    rfl
  · refine ⟨fun _ none => absurd none (Nat.not_lt_zero _), ?_⟩
    rcases ends with rfl | ⟨after, rfl⟩
    · right
      simp
    · left
      refine ⟨left ++ 'L' :: (name ++ [';']), by simp, ?_⟩
      simp only [size_append, size_cons, mark, Nat.add_zero]
      omega

/-- A character that is not the letter of a class is read as a primitive type or an unknown one. The
bytes of a character beyond ASCII that follow its first byte are left. -/
theorem elementAt_append_cons (left rest : Text) {first : Char} (noClass : first ≠ 'L') :
    elementAt (left ++ first :: rest) (size left) =
        .ok ((primitive? first).getD unknownType, size left + 1) ∧
      LeavesAt (left ++ first :: rest) (size left + 1) (first.utf8Size - 1) rest := by
  obtain ⟨lead, others, bytes, high, leads⟩ := exists_utf8EncodeChar first
  have length : others.length = first.utf8Size - 1 := by
    rw [← String.length_utf8EncodeChar, bytes]
    rfl
  have atLead : (utf8 (left ++ first :: rest))[size left]? = some lead := by
    have found := getElem?_utf8_append left (first :: rest) 0
    rw [utf8_cons, bytes] at found
    exact found
  have differs : lead ≠ 0x4C := by
    rintro rfl
    rcases leads with ⟨same, -⟩ | ⟨low, -⟩
    · exact noClass (by rw [← Char.ofNat_toNat first, ← same]; rfl)
    · exact absurd low (by decide)
  constructor
  · rw [elementAt, atLead]
    dsimp only
    rw [if_neg differs, primitive?_lead leads]
  · constructor
    · intro index inside
      have isByte : index < others.length := by omega
      refine ⟨others[index], ?_, high _ (List.getElem_mem isByte)⟩
      have found := getElem?_utf8_append left (first :: rest) (1 + index)
      rw [Nat.add_assoc, found, utf8_cons, bytes, Nat.add_comm 1 index, List.cons_append,
        List.getElem?_cons_succ, List.getElem?_append_left isByte, List.getElem?_eq_getElem isByte]
    · left
      have positive := first.utf8Size_pos
      refine ⟨left ++ [first], by simp, ?_⟩
      simp only [size_append, size_cons, size_nil]
      omega

/-- Reading an element by its bytes gives the first of the types that decoding gives, and leaves the
others. -/
theorem elementAt_append (left right : Text) : ∃ name next count rest,
    elementAt (left ++ right) (size left) = .ok (name, next) ∧
      (∀ dimensions, decodeElement dimensions right =
        ((name ++ arraySuffix dimensions) :: List.replicate count unknownType, rest)) ∧
      LeavesAt (left ++ right) next count rest := by
  rcases right with _ | ⟨first, rest⟩
  · refine ⟨unknownType, size left + 1, 0, [], ?_, fun dimensions => rfl, by simp, .inr ⟨rfl, ?_⟩⟩
    · have atEnd : (utf8 (left ++ []))[size left]? = none := by
        rw [List.append_nil]
        exact List.getElem?_eq_none (Nat.le_refl _)
      rw [elementAt, atEnd]
    · simp
  · by_cases isClass : first = 'L'
    · subst isClass
      have parts : rest.takeWhile (· != ';') ++ rest.dropWhile (· != ';') = rest :=
        List.takeWhile_append_dropWhile
      have absent : ';' ∉ rest.takeWhile (· != ';') :=
        fun inName => absurd (List.mem_takeWhile_imp inName) (by decide)
      have ends : rest.dropWhile (· != ';') = [] ∨
          ∃ after, rest.dropWhile (· != ';') = ';' :: after := by
        cases found : rest.dropWhile (· != ';') with
        | nil => exact .inl rfl
        | cons mark after =>
            have isMark := List.head?_dropWhile_not (· != ';') rest
            rw [found] at isMark
            obtain rfl : mark = ';' := by simpa using isMark
            exact .inr ⟨after, rfl⟩
      have read := classAt_append left absent ends
      rw [parts] at read
      refine ⟨_, _, 0, _, ?_, fun dimensions => rfl, read.2⟩
      have atLetter : (utf8 (left ++ 'L' :: rest))[size left]? = some 0x4C :=
        getElem?_utf8_append left ('L' :: rest) 0
      rw [elementAt, atLetter]
      exact read.1
    · have read := elementAt_append_cons left rest isClass
      refine ⟨_, _, first.utf8Size - 1, rest, read.1, fun dimensions => ?_, read.2⟩
      rw [decodeElement.eq_3 dimensions first rest isClass]
      cases isPrimitive : primitive? first with
      | none => rfl
      | some name =>
          have ascii : first.toNat < 0x80 := by
            by_contra beyond
            simp [primitive?_eq_none (Nat.le_of_not_lt beyond)] at isPrimitive
          rw [utf8Size_of_ascii ascii]
          rfl

theorem typeAt_append (left right : Text) : ∃ shown next count rest,
    typeAt (left ++ right) (size left) = .ok (shown, next) ∧
      decodeType right = (shown :: List.replicate count unknownType, rest) ∧
      LeavesAt (left ++ right) next count rest := by
  let dimensions := (right.takeWhile (· == '[')).length
  let element := right.dropWhile (· == '[')
  have isBrackets : right.takeWhile (· == '[') = List.replicate dimensions '[' :=
    List.eq_replicate_of_mem fun character member => by
      simpa using List.mem_takeWhile_imp member
  have parts : right = List.replicate dimensions '[' ++ element := by
    rw [← isBrackets, List.takeWhile_append_dropWhile]
  have noBracket : element.head? ≠ some '[' := by
    intro isBracket
    have differs := List.head?_dropWhile_not (· == '[') right
    rw [show (right.dropWhile (· == '[')).head? = some '[' from isBracket] at differs
    simp at differs
  obtain ⟨name, next, count, rest, read, decoded, leaves⟩ :=
    elementAt_append (left ++ List.replicate dimensions '[') element
  have text : left ++ List.replicate dimensions '[' ++ element = left ++ right := by
    rw [List.append_assoc, ← parts]
  have place : size (left ++ List.replicate dimensions '[') = size left + dimensions := by
    rw [size_append, size, size, utf8_brackets, List.length_replicate]
  have brackets := bracketsAt_append left dimensions noBracket
  rw [← parts] at brackets
  rw [text] at read leaves
  refine ⟨name ++ arraySuffix dimensions, next, count, rest, ?_, decoded dimensions, leaves⟩
  rw [typeAt, brackets]
  rw [place] at read
  simp only [read]
  rfl

/-- A byte from within a character is read as an unknown type. -/
theorem typeAt_within {text : Text} {place : Nat} {byte : UInt8}
    (isByte : (utf8 text)[place]? = some byte) (high : 0x80 ≤ byte.toNat) :
    typeAt text place = .ok (unknownType, place + 1) := by
  obtain ⟨inside, isHere⟩ := List.getElem?_eq_some_iff.1 isByte
  have noBracket : byte ≠ 0x5B := by
    rintro rfl
    exact absurd high (by decide)
  have noClass : byte ≠ 0x4C := by
    rintro rfl
    exact absurd high (by decide)
  have brackets : bracketsAt text place = 0 := by
    rw [bracketsAt, List.drop_eq_getElem_cons inside, isHere]
    simp [noBracket]
  have element : elementAt text place = .ok (unknownType, place + 1) := by
    rw [elementAt, isByte]
    dsimp only
    rw [if_neg noClass, primitive?_eq_none (le_toNat_ofNat high)]
    rfl
  rw [typeAt, brackets]
  simp only [Nat.add_zero, element]
  simp [Except.map, arraySuffix]

/-- So the types from a place on are those that are left there. -/
theorem typesFrom_of_leavesAt {text rest : Text} {place count : Nat}
    (leaves : LeavesAt text place count rest)
    (later : ∀ front, text = front ++ rest →
      typesFrom text (size front) = .ok (decodeTypes rest)) :
    typesFrom text place = .ok (List.replicate count unknownType ++ decodeTypes rest) := by
  induction count generalizing place with
  | zero =>
      rw [List.replicate_zero, List.nil_append]
      rcases leaves.behind with ⟨front, isText, isPlace⟩ | ⟨rfl, isBehind⟩
      · rw [show place = size front from isPlace]
        exact later front isText
      · rw [decodeTypes]
        exact typesFrom_of_le isBehind
  | succ count ih =>
      obtain ⟨byte, isByte, high⟩ := leaves.within 0 (Nat.succ_pos count)
      rw [Nat.add_zero] at isByte
      have read := typeAt_within isByte high
      have others : LeavesAt text (place + 1) count rest := by
        constructor
        · intro index inside
          have found := leaves.within (index + 1) (Nat.succ_lt_succ inside)
          rwa [Nat.add_comm index 1, ← Nat.add_assoc] at found
        · have behind := leaves.behind
          rwa [Nat.add_comm count 1, ← Nat.add_assoc] at behind
      rw [typesFrom_of_typeAt (List.getElem?_eq_some_iff.1 isByte).1 read, ih others]
      rfl

theorem typesFrom_append (left right : Text) :
    typesFrom (left ++ right) (size left) = .ok (decodeTypes right) := by
  induction length : right.length using Nat.strong_induction_on generalizing left right with
  | _ length ih =>
      subst length
      rcases right with _ | ⟨first, rest⟩
      · rw [decodeTypes, List.append_nil]
        exact typesFrom_of_le (Nat.le_refl _)
      · obtain ⟨shown, next, count, others, read, decoded, leaves⟩ :=
          typeAt_append left (first :: rest)
        have inside : size left < size (left ++ first :: rest) := by
          have positive := first.utf8Size_pos
          simp only [size_append, size_cons]
          omega
        have shorter := decodeType_length first rest
        rw [decoded] at shorter
        have later := typesFrom_of_leavesAt leaves fun front isText => by
          rw [isText]
          exact ih others.length shorter front others rfl
        rw [typesFrom_of_typeAt inside read, later, decodeTypes, decoded]
        rfl

theorem decode_of_unopened {descriptor : Text} (unopened : '(' ∉ descriptor) :
    decode descriptor = none := by
  have noCut : splitOnce "(" descriptor = none := splitOnce_eq_none unopened
  rw [decode, noCut]

theorem decode_of_unclosed {left rest : Text} (isFirst : '(' ∉ left) (unclosed : ')' ∉ rest) :
    decode (left ++ '(' :: rest) = none := by
  have cut : splitOnce "(" (left ++ '(' :: rest) = some (left, rest) :=
    splitOnce_append isFirst rest
  rw [decode, cut]
  dsimp only
  rw [splitLast_eq_none unclosed]

section parentheses

variable {left inner back : Text} (isFirst : '(' ∉ left) (isLast : ')' ∉ back)

include isFirst isLast

theorem decode_of_parentheses : decode (left ++ '(' :: (inner ++ ')' :: back)) =
    if back = [] then none
    else (decodeType back).1.head?.map fun name => (name, decodeTypes inner) := by
  have cut : splitOnce "(" (left ++ '(' :: (inner ++ ')' :: back)) =
      some (left, inner ++ ')' :: back) := splitOnce_append isFirst _
  rw [decode, cut]
  dsimp only
  rw [splitLast_append isLast]
  cases back with
  | nil => rfl
  | cons first back => rfl

/-- Where a descriptor has its parentheses, the reader slices what they hold and what follows. -/
theorem read_of_parentheses : read (left ++ '(' :: (inner ++ ')' :: back)) =
    .ok (if back = [] then none
      else (decodeType back).1.head?.map fun name => (name, decodeTypes inner)) := by
  let descriptor := left ++ '(' :: (inner ++ ')' :: back)
  let front := left ++ '(' :: inner
  have opening : size ['('] = 1 := by decide
  have closing : size [')'] = 1 := by decide
  have isText : descriptor = front ++ ')' :: back := by simp [descriptor, front]
  have opens : find? '(' descriptor = some (size left) := find?_append isFirst _
  have closes : findLast? ')' descriptor = some (size front) := by
    rw [isText]
    exact findLast?_append isLast front
  have ordered : ¬size front < size left := by
    simp [front]
  have parameters : slice descriptor (size left + 1) (size front) = .ok inner := by
    refine slice_eq_ok_iff.2 ⟨left ++ ['('], ')' :: back, by simp [descriptor], ?_, by simp [front]⟩
    rw [size_append, opening]
  have result : slice descriptor (size front + 1) (size descriptor) = .ok back := by
    refine slice_eq_ok_iff.2 ⟨front ++ [')'], [], by simp [isText], ?_, by simp [isText]⟩
    rw [size_append front, closing]
  have types : typesFrom inner 0 = .ok (decodeTypes inner) := typesFrom_append [] inner
  obtain ⟨shown, next, count, rest, first, decoded, -⟩ := typeAt_append [] back
  have isType : typeAt back 0 = .ok (shown, next) := first
  change read descriptor = _
  rw [read, opens, closes]
  dsimp only
  rw [if_neg ordered, parameters]
  change (typesFrom inner 0 >>= _) = _
  rw [types]
  change (slice descriptor (size front + 1) _ >>= _) = _
  rw [result, decoded]
  change (if back = [] then _ else _) = _
  by_cases isEmpty : back = []
  · rw [if_pos isEmpty, if_pos isEmpty]
    rfl
  · rw [if_neg isEmpty, if_neg isEmpty, isType]
    rfl

end parentheses

/-- Reading a descriptor by its bytes gives what decoding it gives. -/
theorem read_eq_decode (descriptor : Text) : read descriptor = .ok (decode descriptor) := by
  by_cases opens : '(' ∈ descriptor
  · obtain ⟨left, rest, rfl, isFirst⟩ := List.eq_append_cons_of_mem opens
    by_cases closes : ')' ∈ rest
    · obtain ⟨inner, back, rfl, isLast⟩ := exists_last_of_mem closes
      rw [read_of_parentheses isFirst isLast, decode_of_parentheses isFirst isLast]
    · rw [decode_of_unclosed isFirst closes, read, find?_append isFirst]
      by_cases before : ')' ∈ left
      · -- the last closing parenthesis stands before the first opening one
        obtain ⟨front, gap, rfl, isLast⟩ := exists_last_of_mem before
        have noMark : ')' ∉ gap ++ '(' :: rest := by simp [isLast, closes]
        have isEarlier : size front < size (front ++ ')' :: gap) := by
          have positive := Char.utf8Size_pos ')'
          simp only [size_append, size_cons]
          omega
        rw [List.append_assoc, List.cons_append, findLast?_append noMark]
        exact if_pos isEarlier
      · rw [findLast?_eq_none (by simp [before, closes])]
  · rw [decode_of_unopened opens, read, find?_eq_none opens]

/-- Whatever a descriptor is, reading it by its bytes takes no slice but between characters, and
gives what decoding gives. Every type takes it further on, and there are at most as many parameters
as bytes between the first opening and the last closing parenthesis. -/
theorem read_takes_no_badSlice (descriptor : Text) :
    read descriptor = .ok (decode descriptor) ∧
      (∀ text place shown next, typeAt text place = .ok (shown, next) → place < next) ∧
      ∀ result parameters, decode descriptor = some (result, parameters) →
        ∃ left inner back, descriptor = left ++ '(' :: (inner ++ ')' :: back) ∧
          '(' ∉ left ∧ ')' ∉ back ∧ parameters.length ≤ (utf8 inner).length := by
  refine ⟨read_eq_decode descriptor, fun _ _ _ _ => lt_of_typeAt, ?_⟩
  intro result parameters decoded
  by_cases opens : '(' ∈ descriptor
  · obtain ⟨left, rest, rfl, isFirst⟩ := List.eq_append_cons_of_mem opens
    by_cases closes : ')' ∈ rest
    · obtain ⟨inner, back, rfl, isLast⟩ := exists_last_of_mem closes
      rw [decode_of_parentheses isFirst isLast, Option.ite_none_left_eq_some] at decoded
      obtain ⟨name, -, equal⟩ := Option.map_eq_some_iff.1 decoded.2
      obtain rfl := (Prod.mk.inj equal).2
      exact ⟨left, inner, back, rfl, isFirst, isLast,
        length_le_of_typesFrom (typesFrom_append [] inner)⟩
    · rw [decode_of_unclosed isFirst closes] at decoded
      cases decoded
  · rw [decode_of_unopened opens] at decoded
    cases decoded

/-- Types with characters of two and three bytes, inside of names and outside of them. -/
def accentedDescriptor : Text := "x(é[Lá/→;Z[L[)[Iü"

theorem read_takes_no_badSlice_accentedDescriptor :
    read accentedDescriptor =
        .ok (some (("int[]" : Text),
          (["<unknown>", "<unknown>", "á.→[]", "boolean", "[[]"] : List Text))) := by
  rw [(read_takes_no_badSlice accentedDescriptor).1]
  decide +kernel

end Bytewise

end CompiledViews.Dump.Descriptor
