import CompiledViews.CommandLine.Reader
import CompiledViews.Settings.Basic

/-!
# Invocations

What a command line asks for, and how it changes the settings of a file.
-/

namespace CompiledViews

/-- What is chosen on the command line about showing views. -/
structure Choices where
  noOptimize : Bool
  keepAnnotated : Bool
  minApiLevel : Option Nat
  views : List View
  noLineNumbers : Bool
deriving DecidableEq, Repr

/-- What a command line asks for. -/
structure Invocation where
  activity : Activity
  source : Text
  scratchDirectory : Option Text
  settingsFile : Option Text
  androidHome : Option Text
  kotlinHome : Option Text
  debug : Bool
  json : Bool
  choices : Choices
deriving DecidableEq, Repr

/-- The settings after what is chosen: views that are named are the only ones computed. -/
def Choices.apply (choices : Choices) (settings : Settings) : Settings where
  optimize := settings.optimize && !choices.noOptimize
  keepEverything := settings.keepEverything && !choices.keepAnnotated
  minApiLevel := choices.minApiLevel.getD settings.minApiLevel
  compilerFlags := settings.compilerFlags
  r8Rules := settings.r8Rules
  kotlinOnlyConsumers := settings.kotlinOnlyConsumers
  views := if choices.views = [] then settings.views else .only choices.views
  decompileHidden := settings.decompileHidden && choices.views.isEmpty
  style := { settings.style with
    showLineNumbers := settings.style.showLineNumbers && !choices.noLineNumbers }
  androidHome := settings.androidHome
  kotlinHome := settings.kotlinHome
  scratchDirectory := settings.scratchDirectory

/-- The settings of an invocation, which wins over those that it starts from. -/
def Invocation.apply (invocation : Invocation) (settings : Settings) : Settings :=
  { invocation.choices.apply settings with
    androidHome := invocation.androidHome <|> settings.androidHome
    kotlinHome := invocation.kotlinHome <|> settings.kotlinHome
    scratchDirectory := invocation.scratchDirectory <|> settings.scratchDirectory }

abbrev GivenParameters := List (Parameter × ParameterValue)

namespace GivenParameters

/-- The value of a parameter; the one given last counts. -/
def value? (given : GivenParameters) (parameter : Parameter) : Option ParameterValue :=
  (given.reverse.find? fun entry => entry.1 == parameter).map (·.2)

/-- Whether an option without a value is given. -/
def has (given : GivenParameters) (parameter : Parameter) : Bool :=
  (given.value? parameter).isSome

/-- The path that is the value of a parameter. -/
def path? (given : GivenParameters) (parameter : Parameter) : Option Text :=
  match given.value? parameter with
  | some (.path path) => some path
  | _ => none

/-- The number that is the value of a parameter. -/
def number? (given : GivenParameters) (parameter : Parameter) : Option Nat :=
  match given.value? parameter with
  | some (.number number) => some number
  | _ => none

/-- The views that are named, in order. -/
def views (given : GivenParameters) : List View :=
  given.flatMap fun entry =>
    match entry.2 with
    | .views views => views
    | _ => []

/-- What is chosen about showing views. -/
def choices (given : GivenParameters) : Choices where
  noOptimize := given.has .noOptimize
  keepAnnotated := given.has .keepAnnotated
  minApiLevel := given.number? .minApiLevel
  views := given.views
  noLineNumbers := given.has .noLineNumbers

end GivenParameters

namespace Invocation

/-- The invocation of an activity with parameters, those before the activity first. -/
def ofGiven? (activity : Activity) (given : GivenParameters) : Option Invocation := do
  let source ← given.path? .source
  pure {
    activity, source
    scratchDirectory := given.path? .scratchDirectory
    settingsFile := given.path? .settingsFile
    androidHome := given.path? .androidHome
    kotlinHome := given.path? .kotlinHome
    debug := given.has .debug
    json := given.has .json
    choices := given.choices }

/-- The invocation that arguments spell. What follows the activity is judged before what is still
pending from before it. -/
def read (arguments : List Text) : Except UsageError Invocation := do
  let (general, rest) ← (ArgumentReading.new none).readArguments arguments
  match rest with
  | none =>
    let settled ← general.settle
    throw (if settled.given.isEmpty then .nothingGiven else .missingActivity)
  | some (activity, rest) =>
    let (special, _) ← (ArgumentReading.new (some activity)).readArguments rest
    let special ← special.settle
    if !special.has .source then throw .missingSource
    let general ← general.settle
    match ofGiven? activity (general.given ++ special.given) with
    | some invocation => pure invocation
    | none => throw .missingSource

end Invocation

end CompiledViews
