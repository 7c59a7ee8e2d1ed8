import CompiledViews.FileTree.Action
import CompiledViews.Toolchain.Command

/-!
# Hosts

The system that the program runs on: its files, its environment, and its programs. A program that is
named by a path is looked for there, from the directory that it is to run in; any other name is
looked for in the directories of the search path.
-/

namespace CompiledViews

/-- A system: its files, its environment, the directories that programs are looked for in, the
places of files that can be executed, and a path that is free for a temporary directory. -/
structure Host where
  files : FileTree
  environment : Environment
  searchPath : List Text
  programs : List (List Text)
  temporary : Text

/-- Why a program cannot be launched: the system refuses, or a text that is passed to it holds the
character that ends texts there. -/
inductive LaunchError where
  | refused (error : OsError)
  | unpassable
deriving DecidableEq, Repr

/-- The error in words. -/
def LaunchError.message : LaunchError → Text
  | refused error => error.message
  | unpassable => "nul byte found in provided data"

namespace Host

/-- What the system keeps of the exit code that a program gives: its last eight bits. -/
def exitStatus (code : Int) : Int := code % 256

/-- How many bytes an argument may have. -/
def maxArgumentBytes : Nat := 131071

/-- The place of the program that a path leads to. -/
def programAt (host : Host) (files : FileTree) (path : Text) : Except OsError (List Text) := do
  let place ← files.locate path
  if host.programs.contains place && (files.root.at? place).isSome then pure place
  else throw .permissionDenied

/-- The place of the program with a name, in the first directory that has it. Where one has a file
of that name that is no program, that is the reason why there is none; an error that tells nothing
of the file ends the search. -/
def search (host : Host) (files : FileTree) (name : Text) (refusal : OsError) :
    List Text → Except OsError (List Text)
  | [] => .error refusal
  | directory :: directories =>
    match host.programAt files (Path.join directory name) with
    | .ok place => .ok place
    | .error .permissionDenied => search host files name .permissionDenied directories
    | .error .notFound | .error .notDirectory => search host files name refusal directories
    | .error error => .error error

/-- The files as they are seen from the directory that a command is run in. -/
def filesFor (files : FileTree) (command : Command) : Except OsError FileTree :=
  match command.directory with
  | none => .ok files
  | some directory => do
    let place ← files.locate directory
    match files.root.at? place with
    | some (.directory _) => pure { files with current := place }
    | _ => throw .notDirectory

/-- Whether the system cannot be told a command. -/
def isUnpassable (command : Command) : Bool :=
  (command.program :: command.directory.toList ++ command.arguments).any (·.contains '\x00')

/-- The files as a command sees them, and the place of its program. -/
def launch (host : Host) (files : FileTree) (command : Command) :
    Except LaunchError (FileTree × List Text) := do
  if isUnpassable command then throw .unpassable
  let seen ← (filesFor files command).mapError LaunchError.refused
  let place ←
    (if command.program.contains '/' then host.programAt seen command.program
    else if command.program = [] then Except.error OsError.notFound
    else host.search seen command.program .notFound host.searchPath).mapError LaunchError.refused
  if (command.program :: command.arguments).any (maxArgumentBytes < Text.utf8Length ·) then
    throw (.refused .argumentsTooLong)
  pure (seen, place)

end Host

end CompiledViews
