import CompiledViews.Text.Basic

/-!
# Method descriptors

A descriptor such as `(I[Ljava/lang/String;)V` gives the parameter types of a method and its
return type, each in the notation of class files. Decoding gives the types as they are written in
source code. Every text between the parentheses decodes: a byte that begins no type counts as one
unknown type.
-/

namespace CompiledViews.Dump.Descriptor

def unknownType : Text := "<unknown>"

/-- The primitive type that a letter stands for. -/
def primitive? : Char → Option Text
  | 'B' => some "byte"
  | 'C' => some "char"
  | 'D' => some "double"
  | 'F' => some "float"
  | 'I' => some "int"
  | 'J' => some "long"
  | 'S' => some "short"
  | 'V' => some "void"
  | 'Z' => some "boolean"
  | _ => none

/-- How the class with a name in slash notation is shown: in dotted notation, without `java.lang.`
wherever that occurs. -/
def className (name : Text) : Text :=
  Text.removeAll "java.lang." (Text.replaceChar '/' '.' name)

/-- The notation of array dimensions. -/
def arraySuffix : Nat → Text
  | 0 => []
  | dimensions + 1 => "[]" ++ arraySuffix dimensions

/-- The types that begin a text under the given number of dimensions, and the rest. It is one type,
but for a character beyond ASCII, which is as many unknown types as it has bytes. -/
def decodeElement (dimensions : Nat) : Text → List Text × Text
  | [] => ([unknownType ++ arraySuffix dimensions], [])
  | 'L' :: rest =>
    let name := rest.takeWhile (· != ';')
    ([className name ++ arraySuffix dimensions], (rest.dropWhile (· != ';')).drop 1)
  | letter :: rest =>
    match primitive? letter with
    | some name => ([name ++ arraySuffix dimensions], rest)
    | none =>
      ((unknownType ++ arraySuffix dimensions) ::
        List.replicate (letter.utf8Size - 1) unknownType, rest)

/-- The type or types that begin a text, and the rest. -/
def decodeType (text : Text) : List Text × Text :=
  decodeElement (text.takeWhile (· == '[')).length (text.dropWhile (· == '['))

/-- An element takes at least one character, if there is any. -/
theorem decodeElement_length (dimensions : Nat) (text : Text) :
    (decodeElement dimensions text).2.length ≤ text.length - 1 := by
  unfold decodeElement
  split
  · simp
  · next rest =>
    have shorter : (rest.dropWhile (· != ';')).length ≤ rest.length :=
      (List.dropWhile_sublist _).length_le
    simp only [List.length_drop, List.length_cons]
    omega
  · split <;> simp

/-- Decoding a type takes at least one character of a text that has any. -/
theorem decodeType_length (first : Char) (rest : Text) :
    (decodeType (first :: rest)).2.length < (first :: rest).length := by
  have element := decodeElement_length ((first :: rest).takeWhile (· == '[')).length
    ((first :: rest).dropWhile (· == '['))
  have shorter : ((first :: rest).dropWhile (· == '[')).length ≤ (first :: rest).length :=
    (List.dropWhile_sublist _).length_le
  simp only [decodeType, List.length_cons] at *
  omega

/-- The types of a text, from the first to the last. -/
def decodeTypes : Text → List Text
  | [] => []
  | first :: rest =>
    (decodeType (first :: rest)).1 ++ decodeTypes (decodeType (first :: rest)).2
termination_by text => text.length
decreasing_by exact decodeType_length first rest

/-- The return type and the parameter types of a method: the parameters stand between the first
opening and the last closing parenthesis, and the return type after that. -/
def decode (descriptor : Text) : Option (Text × List Text) :=
  match Text.splitOnce "(" descriptor with
  | none => none
  | some (_, afterOpening) =>
    match Text.splitLast ')' afterOpening with
    | none => none
    | some (parameters, result) =>
      match result with
      | [] => none
      | _ :: _ => (decodeType result).1.head?.map fun name => (name, decodeTypes parameters)

end CompiledViews.Dump.Descriptor
