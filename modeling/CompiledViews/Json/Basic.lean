import CompiledViews.Number.Shortest
import CompiledViews.Text.Order

/-!
# JSON values

Values of JSON and their compact text. Numbers are told apart by how they are written: a number
without point and exponent is whole, any other is a floating-point one.
-/

namespace CompiledViews

/-- A JSON value. `negative n` is the whole number `-n`. -/
inductive Json where
  | null
  | bool (value : Bool)
  | natural (value : Nat)
  | negative (value : Nat)
  | float (value : Binary)
  | string (value : Text)
  | array (elements : List Json)
  | object (members : List (Text × Json))
deriving Repr

namespace Json

/-- A hexadecimal digit in lower case. -/
def hexDigit (value : Nat) : Char := Nat.digitChar value

/-- A character within a string: quotes, backslashes and control characters are escaped. -/
def escapedChar (character : Char) : Text :=
  match character with
  | '"' => "\\\""
  | '\\' => "\\\\"
  | '\x08' => "\\b"
  | '\t' => "\\t"
  | '\n' => "\\n"
  | '\x0c' => "\\f"
  | '\r' => "\\r"
  | _ =>
    if character.toNat < 0x20 then
      "\\u00" ++ [hexDigit (character.toNat / 16), hexDigit (character.toNat % 16)]
    else [character]

/-- A string as it is written. -/
def quoted (value : Text) : Text := "\"" ++ value.flatMap escapedChar ++ "\""

/-- A number of double precision as it is written; what is not a number is null. -/
def doubleText (value : Binary) : Text := (value.text? .double .double).getD "null"

/-- A number of single precision as it is written; what is not a number is null. -/
def singleText (value : Binary) : Text := (value.text? .single .single).getD "null"

mutual

/-- The compact text of a value, with its floating-point numbers written as told. -/
def textWith (floatText : Binary → Text) : Json → Text
  | null => "null"
  | bool true => "true"
  | bool false => "false"
  | natural value => Text.ofNat value
  | negative value => "-" ++ Text.ofNat value
  | float value => floatText value
  | string value => quoted value
  | array elements => "[" ++ elementsText floatText elements ++ "]"
  | object members => "\x7b" ++ membersText floatText members ++ "\x7d"

/-- The elements of an array, with commas between them. -/
def elementsText (floatText : Binary → Text) : List Json → Text
  | [] => []
  | [element] => textWith floatText element
  | element :: next :: rest =>
    textWith floatText element ++ "," ++ elementsText floatText (next :: rest)

/-- The members of an object, with commas between them. -/
def membersText (floatText : Binary → Text) : List (Text × Json) → Text
  | [] => []
  | [(key, value)] => quoted key ++ ":" ++ textWith floatText value
  | (key, value) :: next :: rest =>
    quoted key ++ ":" ++ textWith floatText value ++ "," ++ membersText floatText (next :: rest)

end

/-- The compact text of a value, whose floating-point numbers are of double precision. -/
def text (value : Json) : Text := textWith doubleText value

/-- Members in ascending order of their keys with one more, which takes the place of one with the
same key. -/
def insertMember (key : Text) (value : Json) : List (Text × Json) → List (Text × Json)
  | [] => [(key, value)]
  | member :: rest =>
    if Text.precedes key member.1 then (key, value) :: member :: rest
    else if key = member.1 then (key, value) :: rest
    else member :: insertMember key value rest

mutual

/-- The value with the members of every object in ascending order of their keys, the last one of
each key. -/
def sorted : Json → Json
  | array elements => array (sortedElements elements)
  | object members => object (sortedMembers [] members)
  | other => other

def sortedElements : List Json → List Json
  | [] => []
  | element :: rest => sorted element :: sortedElements rest

/-- The members, each one sorted, inserted into members that are already in order. -/
def sortedMembers (inOrder : List (Text × Json)) : List (Text × Json) → List (Text × Json)
  | [] => inOrder
  | (key, value) :: rest => sortedMembers (insertMember key (sorted value) inOrder) rest

end

/-- The value of a member of an object. -/
def member? (key : Text) : Json → Option Json
  | object members => (members.find? fun member => member.1 == key).map (·.2)
  | _ => none

end Json

end CompiledViews
