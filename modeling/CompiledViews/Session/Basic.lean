import CompiledViews.CommandLine.Invocation
import CompiledViews.Host.Basic
import CompiledViews.Run.Pipeline
import CompiledViews.Run.Timeline
import CompiledViews.Session.Console
import CompiledViews.Settings.Load

/-!
# Sessions

What the program does from its command line to its exit code, on a host whose tools are known.
-/

namespace CompiledViews

/-- Why a session ends before its run. -/
inductive SessionError where
  | settings (error : LoadError)
  | source (path : Text) (error : OsError)
  | noDirectory
  | watching (directory : Text) (error : OsError)
deriving DecidableEq, Repr

namespace SessionError

/-- The error in words. -/
def message : SessionError → Text
  | settings error => error.message
  | source path _ => "failed to read " ++ path
  | noDirectory => "source file has no parent directory"
  | watching directory _ => "failed to watch " ++ directory

def cause? : SessionError → Option Text
  | settings error => some error.cause
  | source _ error => some error.message
  | noDirectory => none
  | watching directory error =>
    let reason : Text := if error = .notFound then "No path was found." else error.message
    some (reason ++ " about [" ++ Text.quotedPath directory ++ "]")

/-- The error as it is printed, with its cause below it. -/
def report (error : SessionError) : Printed :=
  match error.cause? with
  | some cause => .diagnostic ("Error: " ++ error.message ++ "\n\nCaused by:\n    " ++ cause)
  | none => .diagnostic ("Error: " ++ error.message)

end SessionError

/-- What a tool does whenever it runs: its result, and what it does to files, given the directory
that it runs in. -/
structure ToolBehaviour where
  result : ToolResult
  action : Text → FileAction Unit

/-- What a session comes to: its exit code, unless it waits for changes, and what it prints. -/
structure SessionResult where
  exitCode : Option Nat
  printed : List Printed
deriving DecidableEq, Repr

namespace Session

/-- The name of the program and its version. -/
def versionLine : Text := "kexplorer 0.1.0"

/-- How the program is called. -/
def usageLine : Text := "Usage: kexplorer [OPTIONS] <COMMAND>"

/-- The result of a command line that cannot be followed. -/
def refusal (error : UsageError) : SessionResult :=
  ⟨some error.exitCode,
    match error with
    | .versionWanted => [.line versionLine]
    | .helpWanted => [.line usageLine]
    | _ => [.diagnostic usageLine]⟩

/-- The tools of a run on a host: those that cannot be launched fail at once. -/
def tools (host : Host) (behaviour : Tool → ToolBehaviour) : Tools :=
  fun files tool command =>
    { delay := 1
      landing :=
        match host.launch files command with
        | .ok (seen, _) =>
          let result := (behaviour tool).result
          { outcome := .ok { result with exitCode := Host.exitStatus result.exitCode }
            effect := fun files =>
              match (behaviour tool).action seen.currentPath files with
              | .ok _ next => next
              | .error _ next => next }
        | .error error => ⟨.error (.launch command.program error.message), id⟩ }

/-- The settings of an invocation: those of a file, or else the default ones, and what is chosen on
the command line. -/
def settings (files : FileTree) (invocation : Invocation) : Except SessionError Settings := do
  let loaded ←
    match invocation.settingsFile with
    | some path => (Settings.load files path).mapError SessionError.settings
    | none => pure Settings.default
  pure (invocation.apply loaded)

def withDirectory (files : FileTree) (path : Text) : FileTree :=
  match FileTree.makeDirectories path files with
  | .ok _ next => next
  | .error _ next => next

/-- The path of the source that is read. A watched one is told by its absolute path, and the
directory of that has to be there. -/
def sourcePath (files : FileTree) (invocation : Invocation) : Except SessionError Text :=
  match invocation.activity with
  | .disassemble | .run => .ok invocation.source
  | .watch =>
    let path := files.canonical invocation.source
    match Path.parent? path with
    | none => .error .noDirectory
    | some directory =>
      match files.locate directory with
      | .ok _ => .ok path
      | .error error => .error (.watching directory error)

/-- The task of an activity, and its number of steps. -/
def task (pipeline : Pipeline) (source : Text) : Activity → Task × Nat
  | .run => (pipeline.execute source, runSteps)
  | _ => (pipeline.disassemble source, disassemblySteps)

/-- What an invocation comes to: its events, and the style that listings are shown in. -/
def events (host : Host) (behaviour : Tool → ToolBehaviour) (invocation : Invocation) :
    Except SessionError (Style × List Event) := do
  let settings ← settings host.files invocation
  let paths := ToolPaths.resolve host.files host.environment settings.androidHome
    settings.kotlinHome
  let (files, directory) :=
    match settings.scratchDirectory with
    | some directory => (host.files, directory)
    | none => (withDirectory host.files host.temporary, host.temporary)
  let pipeline := Pipeline.new files paths directory settings
  let path ← sourcePath files invocation
  let source ← (files.readText path).mapError (SessionError.source path)
  let (task, steps) := task pipeline source invocation.activity
  let final := Timeline.finish (tools host behaviour) none
    (World.new task steps files)
  pure (settings.style, final.events)

/-- What a run that is printed to its end comes to. -/
def finished (invocation : Invocation) (style : Style) (events : List Event) : SessionResult where
  exitCode :=
    if invocation.activity = .watch then none
    else some (if Console.succeeded events then 0 else 1)
  printed := Console.print invocation.json style events

/-- The exit code of a program that cannot go on. -/
def faultCode : Nat := 101

/-- What a run comes to, which ends where a listing does not fit its style. -/
def untilFault (invocation : Invocation) (style : Style) (events : List Event) : SessionResult :=
  match Console.interrupted? invocation.json style events with
  | some printed => ⟨some faultCode, printed⟩
  | none => finished invocation style events

/-- The session of a command line, with what becomes of the events of a run. -/
def runWith (ending : Invocation → Style → List Event → SessionResult) (host : Host)
    (behaviour : Tool → ToolBehaviour) (arguments : List Text) : SessionResult :=
  match Invocation.read arguments with
  | .error error => refusal error
  | .ok invocation =>
    match events host behaviour invocation with
    | .error error => ⟨some 1, [error.report]⟩
    | .ok (style, events) => ending invocation style events

/-- The session of a command line if every listing fits its style. -/
def run : Host → (Tool → ToolBehaviour) → List Text → SessionResult := runWith finished

/-- The session of a command line. -/
def perform : Host → (Tool → ToolBehaviour) → List Text → SessionResult := runWith untilFault

end Session

end CompiledViews
