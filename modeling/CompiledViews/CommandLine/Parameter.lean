import CompiledViews.Settings.View

/-!
# Parameters

What can be given on the command line: the activity, the source, and options. Some options may
stand before the activity or after it, others belong to activities.
-/

namespace CompiledViews

/-- What the program is asked to do. -/
inductive Activity where
  | disassemble
  | run
  | watch
deriving DecidableEq, Repr

namespace Activity

/-- All activities. -/
def all : List Activity := [disassemble, run, watch]

def name : Activity → Text
  | disassemble => "disassemble"
  | run => "run"
  | watch => "watch"

def ofName? (name : Text) : Option Activity := all.find? fun activity => activity.name == name

def showsViews : Activity → Bool
  | run => false
  | _ => true

end Activity

/-- What can be given besides the activity. -/
inductive Parameter where
  | source
  | scratchDirectory
  | settingsFile
  | androidHome
  | kotlinHome
  | debug
  | json
  | help
  | version
  | noOptimize
  | keepAnnotated
  | minApiLevel
  | views
  | noLineNumbers
deriving DecidableEq, Repr

namespace Parameter

/-- All parameters. -/
def all : List Parameter :=
  [source, scratchDirectory, settingsFile, androidHome, kotlinHome, debug, json, help, version,
    noOptimize, keepAnnotated, minApiLevel, views, noLineNumbers]

/-- The long name of an option, which follows two hyphens. -/
def longName? : Parameter → Option Text
  | source => none
  | scratchDirectory => some "scratch-dir"
  | settingsFile => some "config"
  | androidHome => some "android-home"
  | kotlinHome => some "kotlin-home"
  | debug => some "debug"
  | json => some "json"
  | help => some "help"
  | version => some "version"
  | noOptimize => some "no-optimize"
  | keepAnnotated => some "keep-annotated"
  | minApiLevel => some "min-api"
  | views => some "views"
  | noLineNumbers => some "no-line-numbers"

/-- The letter of an option, which follows one hyphen. -/
def letter? : Parameter → Option Char
  | debug => some 'd'
  | help => some 'h'
  | version => some 'V'
  | _ => none

def takesValue : Parameter → Bool
  | source | scratchDirectory | settingsFile | androidHome | kotlinHome | minApiLevel | views =>
    true
  | _ => false

/-- Whether a parameter may be given more than once at one place. -/
def accumulates : Parameter → Bool
  | views => true
  | _ => false

/-- Whether a parameter is accepted before the activity, or after it. -/
def accepted : Option Activity → Parameter → Bool
  | _, settingsFile | _, androidHome | _, kotlinHome | _, debug | _, json | _, help => true
  | none, version => true
  | some _, source | some _, scratchDirectory => true
  | some activity, noOptimize | some activity, keepAnnotated | some activity, minApiLevel
  | some activity, views | some activity, noLineNumbers => activity.showsViews
  | _, _ => false

/-- The option with a long name that is accepted. -/
def ofLongName? (place : Option Activity) (name : Text) : Option Parameter :=
  all.find? fun parameter => accepted place parameter && parameter.longName? == some name

/-- The option with a letter that is accepted. -/
def ofLetter? (place : Option Activity) (letter : Char) : Option Parameter :=
  all.find? fun parameter => accepted place parameter && parameter.letter? == some letter

end Parameter

end CompiledViews
