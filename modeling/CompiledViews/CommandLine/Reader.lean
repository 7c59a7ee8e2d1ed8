import CompiledViews.CommandLine.Parameter
import CompiledViews.Text.Numeral

/-!
# Reading the command line

Arguments are read one after the other, first up to the activity and then what follows it. A value
that is an argument of its own is held back until the next parameter or the end, and only then is
it judged; so of two mistakes the later one may win.
-/

namespace CompiledViews

/-- Why a command line cannot be followed: nothing is given at all, the activity or the source is
missing, an activity or another argument is not known, a value is missing, empty or not a possible
one, it is no number, a parameter is repeated, or an option has a value that takes none. Asking for
help or for the version ends the reading as well. -/
inductive UsageError where
  | nothingGiven
  | missingActivity
  | missingSource
  | unknownActivity
  | unknownArgument
  | unsuitableValue
  | notNumber
  | repeated
  | needlessValue
  | helpWanted
  | versionWanted
deriving DecidableEq, Repr

/-- The exit code of the program that cannot follow its command line. -/
def UsageError.exitCode : UsageError → Nat
  | helpWanted | versionWanted => 0
  | _ => 2

/-- The value of a parameter. -/
inductive ParameterValue where
  | given
  | path (path : Text)
  | number (number : Nat)
  | views (views : List View)
deriving DecidableEq, Repr

namespace ParameterValue

/-- The view that is called so on the command line. -/
def view? (name : Text) : Option View :=
  if name = "byte-code" then some .byteCode
  else if name = "dex" then some .dex
  else if name = "oat" then some .oat
  else none

/-- The number of thirty-two bits in decimal notation, with or without a sign. -/
def number? : Text → Option Nat
  | '-' :: digits =>
    if digits ≠ [] ∧ digits.all (· == '0') then some 0 else none
  | text => Text.decimal? text

/-- The value of a parameter that is written as given. -/
def read (parameter : Parameter) (text : Text) : Except UsageError ParameterValue :=
  match parameter with
  | .minApiLevel =>
    match number? text with
    | some value => .ok (number value)
    | none => .error .notNumber
  | .views =>
    match (Text.splitAll ',' text).mapM view? with
    | some chosen => .ok (views chosen)
    | none => .error .unsuitableValue
  | _ => if text = [] then .error .unsuitableValue else .ok (path text)

end ParameterValue

/-- What has been read: the activity that arguments belong to, the parameters that have been given
for it, the last one if its value is still to come or to be judged, and whether all that follows is
taken as it is. -/
structure ArgumentReading where
  place : Option Activity
  given : List (Parameter × ParameterValue)
  pending : Option (Parameter × Option Text)
  verbatim : Bool
deriving DecidableEq, Repr

namespace ArgumentReading

/-- Nothing read. -/
def new (place : Option Activity) : ArgumentReading := ⟨place, [], none, false⟩

/-- Whether a parameter has been given and judged. -/
def has (reading : ArgumentReading) (parameter : Parameter) : Bool :=
  reading.given.any fun entry => entry.1 == parameter

/-- One more parameter, with the reading of its value. -/
def add (reading : ArgumentReading) (parameter : Parameter)
    (value : Except UsageError ParameterValue) : Except UsageError ArgumentReading :=
  if reading.has parameter && !parameter.accumulates then .error .repeated
  else value.map fun value => { reading with given := reading.given ++ [(parameter, value)] }

/-- The reading after the pending value is judged. -/
def settle (reading : ArgumentReading) : Except UsageError ArgumentReading :=
  match reading.pending with
  | none => .ok reading
  | some (_, none) => .error .unsuitableValue
  | some (parameter, some text) =>
    { reading with pending := none }.add parameter (ParameterValue.read parameter text)

/-- The reading after an option without a value. -/
def mark (reading : ArgumentReading) (parameter : Parameter) :
    Except UsageError ArgumentReading := do
  let settled ← reading.settle
  match parameter with
  | .help => throw .helpWanted
  | .version => throw .versionWanted
  | _ => settled.add parameter (.ok .given)

/-- The reading after an option with a long name, and the value after an equals sign. -/
def readLong (reading : ArgumentReading) (name : Text) (attached : Option Text) :
    Except UsageError ArgumentReading :=
  match Parameter.ofLongName? reading.place name with
  | none => .error .unknownArgument
  | some parameter =>
    match parameter.takesValue, attached with
    | true, some text => do (← reading.settle).add parameter (ParameterValue.read parameter text)
    | true, none => do pure { ← reading.settle with pending := some (parameter, none) }
    | false, some _ => .error .needlessValue
    | false, none => reading.mark parameter

/-- The reading after options that are letters. -/
def readLetters (reading : ArgumentReading) : Text → Except UsageError ArgumentReading
  | [] => .ok reading
  | letter :: letters =>
    match Parameter.ofLetter? reading.place letter with
    | none => .error .unknownArgument
    | some parameter => do (← reading.mark parameter).readLetters letters

/-- Whether the value of an option is still to come. -/
def awaitsValue (reading : ArgumentReading) : Bool :=
  match reading.pending with
  | some (_, none) => true
  | _ => false

/-- Whether the source has been given. -/
def hasSource (reading : ArgumentReading) : Bool :=
  reading.has .source || (reading.pending.map (·.1)) == some .source

/-- The word that asks for help in place of an activity. -/
def helpName : Text := "help"

/-- Whether a word stands for an activity, or for help. -/
def isActivityName (word : Text) : Bool := word == helpName || (Activity.ofName? word).isSome

/-- The reading after an argument that is no option and no value of one. -/
def readWord (reading : ArgumentReading) (word : Text) : Except UsageError ArgumentReading :=
  match reading.place with
  | none =>
    .error (if reading.verbatim && isActivityName word then .unknownArgument else .unknownActivity)
  | some _ =>
    if reading.hasSource then .error .unknownArgument
    else do pure { ← reading.settle with pending := some (.source, some word) }

/-- The reading after an argument that need not be taken as it is. -/
def readArgument (reading : ArgumentReading) (argument : Text) :
    Except UsageError ArgumentReading :=
  match argument with
  | '-' :: '-' :: body =>
    match Text.splitOnce "=" body with
    | some (name, value) => reading.readLong name (some value)
    | none => reading.readLong body none
  | '-' :: letter :: letters => reading.readLetters (letter :: letters)
  | word =>
    match reading.pending with
    | some (parameter, none) => .ok { reading with pending := some (parameter, some word) }
    | _ => reading.readWord word

/-- The help that is asked for by words. -/
def helpError : List Text → UsageError
  | [] => .helpWanted
  | [topic] => if isActivityName topic then .helpWanted else .unknownActivity
  | _ => .unknownActivity

/-- The reading of arguments, up to the activity if they come before one; with that, and what
follows it. -/
def readArguments (reading : ArgumentReading) :
    List Text → Except UsageError (ArgumentReading × Option (Activity × List Text))
  | [] => .ok (reading, none)
  | argument :: rest =>
    if reading.verbatim then do (← reading.readWord argument).readArguments rest
    else if reading.place.isNone && !reading.awaitsValue && argument == helpName then
      .error (helpError rest)
    else
      match if reading.place.isNone && !reading.awaitsValue then Activity.ofName? argument
        else none with
      | some activity => .ok (reading, some (activity, rest))
      | none =>
        if argument = "--" then { reading with verbatim := true }.readArguments rest
        else do (← reading.readArgument argument).readArguments rest

end ArgumentReading

end CompiledViews
