import CompiledViews.Session.Basic

/-!
# The program

The command line of the program, on the files of the system. Of these it reads the settings and the
source. It launches no program, so every tool counts as one that is not there, and what a run would
leave in its directory for the tools is not kept.
-/

namespace CompiledViews.Program

/-- How many milliseconds pass between two looks at a watched source. -/
def watchPause : UInt32 := 200

/-- A file and the directories above it. -/
def placeFile (path : Text) (content : Bytes) : FileAction Unit := do
  match Text.splitLast '/' path with
  | some (directory, _) => FileTree.makeDirectories directory
  | none => pure ()
  FileTree.writeFile path content

/-- The files after an action, whether it fails or not. -/
def filesAfter (action : FileAction Unit) (files : FileTree) : FileTree :=
  match action files with
  | .ok _ next => next
  | .error _ next => next

/-- The files that a command line asks for. -/
def wantedPaths (arguments : List Text) : List Text :=
  match Invocation.read arguments with
  | .ok invocation => invocation.settingsFile.toList ++ [invocation.source]
  | .error _ => []

/-- Reads the files at some paths, of which those that cannot be read are left out. -/
def readFiles (paths : List Text) (files : FileTree) : IO FileTree :=
  paths.foldlM
    (fun files path => do
      match ← (IO.FS.readBinFile path.toString).toBaseIO with
      | .ok content => pure (filesAfter (placeFile path content.toList) files)
      | .error _ => pure files)
    files

/-- What a variable of the environment is set to. -/
def setting? (name : String) : IO (Option Text) := do
  pure ((← IO.getEnv name).map String.toList)

/-- The host that the program runs on, with the files that a command line asks for. -/
def host (arguments : List Text) : IO Host := do
  let directory := (← IO.currentDir).toString.toList
  let empty : FileTree := ⟨.directory [], Path.names directory⟩
  let files ← readFiles (wantedPaths arguments)
    (filesAfter (FileTree.makeDirectories directory) empty)
  pure {
    files
    environment := ⟨← setting? "ANDROID_HOME", ← setting? "KOTLIN_HOME", ← setting? "HOME",
      ← setting? "USERPROFILE"⟩
    searchPath := []
    programs := []
    temporary := "/tmp/kotlin-explorer" }

/-- What a session on a host comes to, where no tool ever runs. -/
def session (arguments : List Text) (host : Host) : SessionResult :=
  Session.perform host (fun _ => ⟨⟨0, []⟩, fun _ => pure ()⟩) arguments

def print (piece : Printed) : IO Unit :=
  match piece.channel with
  | .output => do
    IO.print piece.text.toString
    (← IO.getStdout).flush
  | .diagnostics => IO.eprint piece.text.toString

/-- The content of the files that a command line asks for. -/
def contents (arguments : List Text) (host : Host) : List (Option Bytes) :=
  (wantedPaths arguments).map fun path => (host.files.readBytes path).toOption

/-- Waits until a file that a command line asks for has another content than before. -/
partial def awaitChange (arguments : List Text) (before : List (Option Bytes)) : IO Unit := do
  IO.sleep watchPause
  let now := contents arguments (← host arguments)
  if now == before then awaitChange arguments before

/-- Runs sessions until one has an exit code. -/
partial def runAll (arguments : List Text) : IO UInt32 := do
  let current ← host arguments
  let result := session arguments current
  result.printed.forM print
  match result.exitCode with
  | some code => pure code.toUInt32
  | none =>
    awaitChange arguments (contents arguments current)
    runAll arguments

end CompiledViews.Program

/-- Runs the program with the arguments of its command line. -/
def main (arguments : List String) : IO UInt32 :=
  CompiledViews.Program.runAll (arguments.map String.toList)
