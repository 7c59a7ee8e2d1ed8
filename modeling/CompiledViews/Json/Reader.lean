import CompiledViews.Json.Number
import CompiledViews.Text.Numeral
import CompiledViews.Text.Utf8

/-!
# Reading JSON text

Text is read from front to back and the first problem wins, so readers of a wanted type look at the
text itself rather than at a value read before. There are readers of arbitrary values, of values
that are skipped, and of records, which are objects or arrays of fields in a known order.
-/

namespace CompiledViews.Json

variable {α σ : Type}

/-- Whether a character is blank between the parts of a JSON text. -/
def isJsonBlank (character : Char) : Bool :=
  character == ' ' || character == '\n' || character == '\t' || character == '\r'

/-- The text from its first character that is not blank. -/
def skipBlanks (text : Text) : Text := text.dropWhile isJsonBlank

/-- The text after the rest of a name such as `null`. -/
def readName : Text → Text → Except ReadError Text
  | [], text => .ok text
  | _ :: _, [] => .error .endOfText
  | expected :: others, character :: rest =>
    if character = expected then readName others rest else .error .malformed

def readColon (text : Text) : Except ReadError Text :=
  match skipBlanks text with
  | [] => .error .endOfText
  | ':' :: rest => .ok rest
  | _ => .error .malformed

/-- The number that four hexadecimal digits spell. -/
def readHex4 (text : Text) : Except ReadError Nat :=
  let digits := text.take 4
  if digits.length = 4 ∧ digits.all Text.isHexDigit then .ok (Text.digitsValue 16 0 digits)
  else if Text.utf8Length digits < 4 then .error .endOfText
  else .error .malformed

/-- Whether a code unit opens a surrogate pair. -/
def isHighSurrogate (unit : Nat) : Bool := 0xD800 ≤ unit && unit ≤ 0xDBFF

/-- Whether a code unit closes a surrogate pair. -/
def isLowSurrogate (unit : Nat) : Bool := 0xDC00 ≤ unit && unit ≤ 0xDFFF

def surrogatePair (high low : Nat) : Char :=
  Char.ofNat (0x10000 + (high - 0xD800) * 0x400 + (low - 0xDC00))

/-- The character that an escape of one letter stands for. -/
def simpleEscape? : Char → Option Char
  | '"' => some '"'
  | '\\' => some '\\'
  | '/' => some '/'
  | 'b' => some '\x08'
  | 'f' => some '\x0c'
  | 'n' => some '\n'
  | 'r' => some '\r'
  | 't' => some '\t'
  | _ => none

/-- The character that the text after the high half of a surrogate pair completes. -/
def readLowSurrogate (high : Nat) : Text → Except ReadError Char
  | [] => .error .endOfText
  | '\\' :: [] => .error .endOfText
  | '\\' :: 'u' :: rest =>
    match readHex4 rest with
    | .error error => .error error
    | .ok low => if isLowSurrogate low then .ok (surrogatePair high low) else .error .malformed
  | _ => .error .malformed

/-- The character that the text after a backslash stands for, and how many characters that takes.
Where the value does not matter, halves of surrogate pairs are no error. -/
def readEscape (strict : Bool) : Text → Except ReadError (Char × Nat)
  | [] => .error .endOfText
  | 'u' :: rest =>
    match readHex4 rest with
    | .error error => .error error
    | .ok unit =>
      if !strict then .ok ('?', 5)
      else if isLowSurrogate unit then .error .malformed
      else if isHighSurrogate unit then
        match readLowSurrogate unit (rest.drop 4) with
        | .error error => .error error
        | .ok character => .ok (character, 11)
      else .ok (Char.ofNat unit, 5)
  | letter :: _ =>
    match simpleEscape? letter with
    | some character => .ok (character, 1)
    | none => .error .malformed

/-- The rest of a string after its opening quote. The number counts the characters of an escape
that have been read already. -/
def readStringFrom (strict : Bool) : Nat → Text → Except ReadError (Text × Text)
  | _, [] => .error .endOfText
  | skip + 1, _ :: rest => readStringFrom strict skip rest
  | 0, '"' :: rest => .ok ([], rest)
  | 0, '\\' :: rest =>
    match readEscape strict rest with
    | .error error => .error error
    | .ok (character, count) =>
      match readStringFrom strict count rest with
      | .error error => .error error
      | .ok (value, final) => .ok (character :: value, final)
  | 0, character :: rest =>
    if character.toNat < 0x20 then .error .malformed
    else
      match readStringFrom strict 0 rest with
      | .error error => .error error
      | .ok (value, final) => .ok (character :: value, final)

/-- The rest of a string after its opening quote. -/
def readStringBody (text : Text) : Except ReadError (Text × Text) := readStringFrom true 0 text

/-- The text after the rest of a string. -/
def skipStringBody (text : Text) : Except ReadError Text :=
  (readStringFrom false 0 text).map (·.2)

/-- The place of the next element of an array, or of its end: the text from the element on, or the
text after the bracket. -/
def nextElement (first : Bool) (text : Text) : Except ReadError (Text ⊕ Text) :=
  match skipBlanks text with
  | [] => .error .endOfText
  | ']' :: rest => .ok (.inr rest)
  | character :: rest =>
    if first then .ok (.inl (character :: rest))
    else if character = ',' then
      match skipBlanks rest with
      | [] => .error .endOfText
      | ']' :: _ => .error .malformed
      | element => .ok (.inl element)
    else .error .malformed

/-- The place of the next member of an object, or of its end: the text after the opening quote of
the key, or the text after the brace. -/
def nextMember (first : Bool) (text : Text) : Except ReadError (Text ⊕ Text) :=
  match skipBlanks text with
  | [] => .error .endOfText
  | '\x7d' :: rest => .ok (.inr rest)
  | '"' :: rest => if first then .ok (.inl rest) else .error .malformed
  | ',' :: rest =>
    if first then .error .malformed
    else
      match skipBlanks rest with
      | [] => .error .endOfText
      | '"' :: key => .ok (.inl key)
      | _ => .error .malformed
  | _ => .error .malformed

/-- The items of a list after its opening bracket, taken into a state one after the other; there are
fewer of them than `limit`. The place of an item, or of the end, is found by `next`. -/
def readItems (next : Bool → Text → Except ReadError (Text ⊕ Text))
    (item : σ → Text → Except ReadError (σ × Text)) :
    (limit : Nat) → (first : Bool) → σ → Text → Except ReadError (σ × Text)
  | 0, _, _, _ => .error .malformed
  | limit + 1, first, state, text => do
    match ← next first text with
    | .inr rest => pure (state, rest)
    | .inl place =>
      let (later, rest) ← item state place
      readItems next item limit false later rest

/-- The elements of an array after its opening bracket. -/
def readElements (element : σ → Text → Except ReadError (σ × Text)) :
    (limit : Nat) → (first : Bool) → σ → Text → Except ReadError (σ × Text) :=
  readItems nextElement element

/-- The members of an object after its opening brace. A member is read from behind the opening quote
of its key. -/
def readMembers (member : σ → Text → Except ReadError (σ × Text)) :
    (limit : Nat) → (first : Bool) → σ → Text → Except ReadError (σ × Text) :=
  readItems nextMember member

/-- A value that is neither an array nor an object. -/
def readScalar (text : Text) : Except ReadError (Json × Text) :=
  match text with
  | [] => .error .endOfText
  | 'n' :: rest => (readName "ull" rest).map (null, ·)
  | 't' :: rest => (readName "rue" rest).map (bool true, ·)
  | 'f' :: rest => (readName "alse" rest).map (bool false, ·)
  | '"' :: rest => (readStringBody rest).map fun (value, final) => (string value, final)
  | character :: rest =>
    if character = '-' ∨ character.isDigit then readNumber (character :: rest)
    else .error .malformed

/-- A value with up to `depth` arrays and objects one in the other. -/
def readValue : (depth : Nat) → Text → Except ReadError (Json × Text)
  | 0, text => readScalar (skipBlanks text)
  | depth + 1, text =>
    match skipBlanks text with
    | '[' :: rest => do
      let (elements, final) ← readElements (fun elements place => do
        let (element, later) ← readValue depth place
        pure (elements ++ [element], later)) (rest.length + 1) true [] rest
      pure (array elements, final)
    | '\x7b' :: rest => do
      let (members, final) ← readMembers (fun members place => do
        let (key, afterKey) ← readStringBody place
        let (value, later) ← readValue depth (← readColon afterKey)
        pure (members ++ [(key, value)], later)) (rest.length + 1) true [] rest
      pure (object members, final)
    | other => readScalar other

/-- The text after a value that is neither an array nor an object. -/
def skipScalar (text : Text) : Except ReadError Text :=
  match text with
  | [] => .error .endOfText
  | 'n' :: rest => readName "ull" rest
  | 't' :: rest => readName "rue" rest
  | 'f' :: rest => readName "alse" rest
  | '"' :: rest => skipStringBody rest
  | character :: rest =>
    if character = '-' ∨ character.isDigit then skipNumber (character :: rest)
    else .error .malformed

/-- The text after a value with up to `depth` arrays and objects one in the other. -/
def skipNested : (depth : Nat) → Text → Except ReadError Text
  | 0, text => skipScalar (skipBlanks text)
  | depth + 1, text =>
    match skipBlanks text with
    | '[' :: rest => do
      let (_, final) ← readElements (fun (_ : Unit) place => do
        pure ((), ← skipNested depth place)) (rest.length + 1) true () rest
      pure final
    | '\x7b' :: rest => do
      let (_, final) ← readMembers (fun (_ : Unit) place => do
        let afterKey ← skipStringBody place
        pure ((), ← skipNested depth (← readColon afterKey))) (rest.length + 1) true () rest
      pure final
    | other => skipScalar other

/-- The text after any value; its depth is less than its length. -/
def skipValue (text : Text) : Except ReadError Text := skipNested text.length text

/-- Nothing but blanks may follow the outermost value. -/
def readEnd (text : Text) : Except ReadError Unit :=
  if skipBlanks text = [] then .ok () else .error .malformed

/-- How many arrays and objects may be one in the other where values are kept. -/
def maxDepth : Nat := 127

def read (text : Text) : Except ReadError Json := do
  let (value, rest) ← readValue maxDepth text
  readEnd rest
  pure value

end CompiledViews.Json
