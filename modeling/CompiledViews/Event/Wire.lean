import CompiledViews.Event.Basic
import CompiledViews.Json.Basic
import CompiledViews.Listing.Basic

/-!
# Events on the wire

Events as a front end receives them: contents are sent as finished listings. A record that is one of
several kinds carries its kind in a member of its own, or as the first element if it is an array.
-/

namespace CompiledViews

/-- What a view has to show, as it is sent. -/
inductive Payload where
  | listing (text : Text) (jumps sourceToCode codeToSource : List (Nat × Nat))
  | unreadable (message : Text)
  | empty
deriving DecidableEq, Repr

/-- An event as it is sent. -/
inductive Message where
  | status (message : Text) (fraction : Binary)
  | log (text : Text) (isError : Bool)
  | content (view : View) (payload : Payload)
deriving DecidableEq, Repr

namespace Payload

/-- The payload of a listing. -/
def ofListing (listing : Listing) : Payload :=
  .listing listing.text listing.jumps.pairs listing.sourceToCode.pairs listing.codeToSource.pairs

/-- The payload of contents, shown in a style. -/
def ofContent (style : Style) : Content → Payload
  | .classes classes => ofListing (.ofClasses classes style)
  | .unreadable message => .unreadable message
  | .empty => .empty

/-- Pairs of line numbers as JSON. -/
def pairsJson (pairs : List (Nat × Nat)) : Json :=
  .array (pairs.map fun (key, value) => .array [.natural key, .natural value])

def toJson : Payload → Json
  | .listing text jumps sourceToCode codeToSource => .object [
      ("state", .string "Success"), ("text", .string text), ("jumps", pairsJson jumps),
      ("source_to_code", pairsJson sourceToCode), ("code_to_source", pairsJson codeToSource)]
  | .unreadable message => .object [("state", .string "Error"), ("message", .string message)]
  | .empty => .object [("state", .string "Empty")]

end Payload

namespace Message

/-- The message of an event, with its contents shown in a style. -/
def ofEvent (style : Style) : Event → Message
  | .status message fraction => .status message fraction
  | .log text isError => .log text isError
  | .content view contents => .content view (.ofContent style contents)

/-- A fraction as JSON; what is not a number is null. -/
def fractionJson : Binary → Json
  | .finite negative mantissa exponent => .float (.finite negative mantissa exponent)
  | _ => .null

def toJson : Message → Json
  | .status message fraction => .object [
      ("type", .string "Status"), ("message", .string message),
      ("fraction", fractionJson fraction)]
  | .log text isError => .object [
      ("type", .string "Log"), ("text", .string text), ("is_error", .bool isError)]
  | .content view payload => .object [
      ("type", .string "Content"), ("view", .string view.name), ("content", payload.toJson)]

/-- The text of a message by itself, whose fraction has single precision. -/
def text (message : Message) : Text := Json.textWith Json.singleText message.toJson

def notification (message : Message) : Json :=
  .object [("jsonrpc", .string "2.0"), ("method", .string "PipelineEvent"),
    ("params", message.toJson)]

end Message

namespace Json

/-- The fields of a record of several kinds besides its kind. -/
inductive Fields where
  | named (members : List (Text × Json))
  | positional (elements : List Json)

/-- The kind of a record and its other fields. -/
def splitKind? (tag : Text) : Json → Option (Json × Fields)
  | object members =>
    (members.find? fun member => member.1 == tag).map fun kind =>
      (kind.2, .named (members.filter fun member => member.1 != tag))
  | array (kind :: elements) => some (kind, .positional elements)
  | _ => none

/-- The fields with the given names, all of which there have to be. Fields without names are in
order, and there are no others. -/
def Fields.values? (names : List Text) : Fields → Option (List Json)
  | named members =>
    names.mapM fun name => (members.find? fun member => member.1 == name).map (·.2)
  | positional elements => if elements.length = names.length then some elements else none

def string? : Json → Option Text
  | string value => some value
  | _ => none

/-- The value of a truth value. -/
def bool? : Json → Option Bool
  | bool value => some value
  | _ => none

/-- The nearest number of single precision. -/
def single? : Json → Option Binary
  | natural value => some (.ofNat .single value)
  | negative value => some (Binary.ofNat .single value).negate
  | float value => some (value.narrow .single)
  | _ => none

/-- A number of thirty-two bits. -/
def word? : Json → Option Nat
  | natural value => if value < Nat.pow 2 32 then some value else none
  | _ => none

def pairs? : Json → Option (List (Nat × Nat))
  | array elements => elements.mapM fun
    | array [key, value] => do pure (← key.word?, ← value.word?)
    | _ => none
  | _ => none

/-- A view, by its name or as an object whose only member has that name and holds nothing. -/
def view? : Json → Option View
  | string name => View.ofName? name
  | object [(name, null)] => View.ofName? name
  | object [(name, object [])] => View.ofName? name
  | _ => none

end Json

namespace Payload

/-- The kinds of payloads, by name or by number. -/
def kind? : Json → Option Nat
  | .string name => (["Success", "Error", "Empty"] : List Text).idxOf? name
  | .natural index => if index < 3 then some index else none
  | _ => none

/-- The payload that a JSON value stands for. -/
def ofJson? (json : Json) : Option Payload := do
  let (kind, fields) ← json.splitKind? "state"
  match ← kind? kind with
  | 0 =>
    match ← fields.values? ["text", "jumps", "source_to_code", "code_to_source"] with
    | [text, jumps, sourceToCode, codeToSource] =>
      pure (.listing (← text.string?) (← jumps.pairs?) (← sourceToCode.pairs?)
        (← codeToSource.pairs?))
    | _ => none
  | 1 =>
    match ← fields.values? ["message"] with
    | [message] => pure (.unreadable (← message.string?))
    | _ => none
  | _ =>
    let _ ← fields.values? []
    pure .empty

end Payload

namespace Message

/-- The message that a JSON value stands for. -/
def ofJson? (json : Json) : Option Message := do
  let (kind, fields) ← json.splitKind? "type"
  let name ← kind.string?
  if name = "Status" then
    match ← fields.values? ["message", "fraction"] with
    | [message, fraction] => pure (.status (← message.string?) (← fraction.single?))
    | _ => none
  else if name = "Log" then
    match ← fields.values? ["text", "is_error"] with
    | [text, isError] => pure (.log (← text.string?) (← isError.bool?))
    | _ => none
  else if name = "Content" then
    match ← fields.values? ["view", "content"] with
    | [view, payload] => pure (.content (← view.view?) (← Payload.ofJson? payload))
    | _ => none
  else none

end Message

end CompiledViews
