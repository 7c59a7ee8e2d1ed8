import CompiledViews.Json.Reader
import CompiledViews.Settings.Basic
import CompiledViews.Text.Quoted

/-!
# Reading settings

Settings are read from JSON text. A record is an object, whose members of other names are skipped,
or an array of its fields in order; what is not given keeps its default. A field may be given once.
-/

namespace CompiledViews

open Json

namespace Json

/-- The error that a value is of another type than the wanted one. -/
def wrongType (found wanted : Text) : ReadError :=
  .mismatch ("invalid type: " ++ found ++ ", expected " ++ wanted)

/-- The error that a whole number is out of the wanted range. -/
def wrongValue (found wanted : Text) : ReadError :=
  .mismatch ("invalid value: " ++ found ++ ", expected " ++ wanted)

/-- What a message calls a value that is neither an array nor an object. -/
def describe : Json → Text
  | null => "null"
  | bool true => "boolean \x60true\x60"
  | bool false => "boolean \x60false\x60"
  | natural value => "integer \x60" ++ Text.ofNat value ++ "\x60"
  | negative value => "integer \x60-" ++ Text.ofNat value ++ "\x60"
  | float value => "floating point \x60" ++ doubleText value ++ "\x60"
  | string value => "string " ++ Text.quoted value
  | array _ => "sequence"
  | object _ => "map"

/-- The problem with a value that is not of the wanted type; a scalar is read first and may have a
problem of its own. -/
def refuse (wanted text : Text) : ReadError :=
  match text with
  | '[' :: _ => wrongType "sequence" wanted
  | '\x7b' :: _ => wrongType "map" wanted
  | _ =>
    match readScalar text with
    | .error error => error
    | .ok (value, _) => wrongType (describe value) wanted

/-- A truth value. -/
def readBool (text : Text) : Except ReadError (Bool × Text) :=
  match skipBlanks text with
  | 't' :: rest => (readName "rue" rest).map (true, ·)
  | 'f' :: rest => (readName "alse" rest).map (false, ·)
  | other => .error (refuse "a boolean" other)

/-- A number below a limit. -/
def readNatural (wanted : Text) (limit : Nat) (text : Text) : Except ReadError (Nat × Text) :=
  match readScalar (skipBlanks text) with
  | .ok (natural value, rest) =>
    if value < limit then .ok (value, rest)
    else .error (wrongValue (describe (natural value)) wanted)
  | .ok (negative value, _) => .error (wrongValue (describe (negative value)) wanted)
  | _ => .error (refuse wanted (skipBlanks text))

/-- A string, called by the given name if it is something else. -/
def readText (wanted text : Text) : Except ReadError (Text × Text) :=
  match skipBlanks text with
  | '"' :: rest => readStringBody rest
  | other => .error (refuse wanted other)

/-- A path, or null for none. -/
def readPath? (text : Text) : Except ReadError (Option Text × Text) :=
  match skipBlanks text with
  | 'n' :: rest => (readName "ull" rest).map (none, ·)
  | other => (readText "path string" other).map fun (path, rest) => (some path, rest)

/-- A field of a record: its name, and how its value changes the record. -/
structure RecordField (σ : Type) where
  name : Text
  read : σ → Text → Except ReadError (σ × Text)

/-- The field with a name whose value is read by itself. -/
def RecordField.ofReader {α σ : Type} (name : Text) (reader : Text → Except ReadError (α × Text))
    (put : σ → α → σ) : RecordField σ :=
  ⟨name, fun record text => do
    let (value, rest) ← reader text
    pure (put record value, rest)⟩

variable {σ : Type}

/-- The rest of a record that is an array: the fields in order, as many as there are elements. -/
def readPositional : List (RecordField σ) → (first : Bool) → σ → Text → Except ReadError (σ × Text)
  | [], _, record, text =>
    match skipBlanks text with
    | [] => .error .endOfText
    | ']' :: rest => .ok (record, rest)
    | _ => .error .malformed
  | field :: fields, first, record, text => do
    match ← nextElement first text with
    | .inr rest => pure (record, rest)
    | .inl place =>
      let (next, rest) ← field.read record place
      readPositional fields false next rest

/-- A member of a record that is an object, with the names of the fields given before. -/
def readField (fields : List (RecordField σ)) (state : σ × List Text) (text : Text) :
    Except ReadError ((σ × List Text) × Text) := do
  let (record, given) := state
  let (key, afterKey) ← readStringBody text
  match fields.find? fun field => field.name == key with
  | none => pure (state, ← skipValue (← readColon afterKey))
  | some field =>
    if given.contains key then throw (.mismatch ("duplicate field \x60" ++ key ++ "\x60"))
    let (next, rest) ← field.read record (← readColon afterKey)
    pure ((next, key :: given), rest)

/-- A record whose fields start from their defaults. -/
def readRecord (wanted : Text) (fields : List (RecordField σ)) (default : σ) (text : Text) :
    Except ReadError (σ × Text) :=
  match skipBlanks text with
  | '[' :: rest => readPositional fields true default rest
  | '\x7b' :: rest => do
    let ((record, _), final) ←
      readMembers (readField fields) (rest.length + 1) true (default, []) rest
    pure (record, final)
  | other => .error (refuse wanted other)

end Json

namespace VisibleViews

def fields : List (RecordField VisibleViews) := [
  .ofReader "byteCode" readBool fun views value => { views with byteCode := value },
  .ofReader "dex" readBool fun views value => { views with dex := value },
  .ofReader "oat" readBool fun views value => { views with oat := value }]

end VisibleViews

namespace Style

def readColumns (text : Text) : Except ReadError (Nat × Text) :=
  readNatural "usize" (Nat.pow 2 64) text

def fields : List (RecordField Style) := [
  .ofReader "indent" readColumns fun style value => { style with indent := value },
  .ofReader "lineNumberWidth" readColumns fun style value =>
    { style with lineNumberWidth := value },
  .ofReader "showLineNumbers" readBool fun style value => { style with showLineNumbers := value }]

def read (text : Text) : Except ReadError (Style × Text) :=
  readRecord "struct CodeStyle" fields .default text

end Style

namespace Settings

def fields : List (RecordField Settings) := [
  .ofReader "optimize" readBool fun settings value => { settings with optimize := value },
  .ofReader "keepEverything" readBool fun settings value =>
    { settings with keepEverything := value },
  .ofReader "minApiLevel" (readNatural "u32" (Nat.pow 2 32)) fun settings value =>
    { settings with minApiLevel := value },
  .ofReader "compilerFlags" (readText "a string") fun settings value =>
    { settings with compilerFlags := value },
  .ofReader "r8Rules" (readText "a string") fun settings value =>
    { settings with r8Rules := value },
  .ofReader "kotlinOnlyConsumers" readBool fun settings value =>
    { settings with kotlinOnlyConsumers := value },
  .ofReader "views" (readRecord "struct Views" VisibleViews.fields .default)
    fun settings value => { settings with views := value },
  .ofReader "decompileHiddenIsa" readBool fun settings value =>
    { settings with decompileHidden := value },
  .ofReader "style" Style.read fun settings value => { settings with style := value },
  .ofReader "androidHome" readPath? fun settings value => { settings with androidHome := value },
  .ofReader "kotlinHome" readPath? fun settings value => { settings with kotlinHome := value },
  .ofReader "scratchDir" readPath? fun settings value =>
    { settings with scratchDirectory := value }]

def read (text : Text) : Except ReadError Settings := do
  let (settings, rest) ← readRecord "struct PipelineConfig" fields .default text
  readEnd rest
  pure settings

end Settings

end CompiledViews
