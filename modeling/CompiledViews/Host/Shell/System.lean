import CompiledViews.Host.Run
import CompiledViews.Host.Shell.Evaluation

/-!
# A small system

A host that has a shell and the usual small tools, and what these programs do. It is one way for
programs to behave, for commands that are to be tried out.
-/

namespace CompiledViews.Host

/-- The directory of the programs that every host has. -/
def programDirectory : Text := Path.ofNames Shell.programDirectory

/-- The files with the programs that every host has, and with those of the system. -/
def furnished (files : FileTree) : FileTree :=
  let write (path : Text) : FileAction Unit := FileTree.writeFile path []
  let devices : List Text := ["/dev/null", "/dev/zero", "/dev/full"]
  let directories : List Text :=
    [programDirectory, "/dev", "/etc", "/home", "/proc", "/root", "/tmp", "/usr/lib", "/var"]
  let actions : List (FileAction Unit) :=
    directories.map FileTree.makeDirectories ++
    [FileTree.makeLink "/bin" programDirectory,
      FileTree.writeFile "/etc/passwd" (Text.utf8 "root:x:0:0:root:/root:/bin/sh\n")] ++
    devices.map write ++
    Shell.programNames.map fun name => write (Path.join programDirectory name)
  actions.foldl (fun files action => Shell.filesAfter action files) files

/-- A host with the given files and no other programs than every host has. -/
def plain (files : FileTree) : Host where
  files := furnished files
  environment := ⟨none, none, none, none⟩
  searchPath :=
    ["/usr/local/sbin", "/usr/local/bin", "/usr/sbin", programDirectory, "/sbin", "/bin"]
  programs := Shell.programNames.map fun name => Shell.programDirectory ++ [name]
  temporary := "/tmp"

/-- The number of the process of a command. -/
def processNumber : Nat := 4242

/-- How many steps a command may take before it counts as one that never ends. Where it is to end
within a time that is told sooner. -/
def stepLimit (limit : Option Nat) : Nat :=
  let most := 1500000
  match limit with
  | some time => min most (100000 + 1000 * time)
  | none => most

/-- The state of a process that begins, on a host with files as it sees them. It must end within a
time. -/
def startingState (host : Host) (files : FileTree) (limit : Option Nat) : Shell.State where
  number := processNumber
  parent := processNumber - 1
  depth := 0
  group := processNumber - 1
  shellNumber := processNumber
  lineage := []
  name := "sh"
  arguments := []
  bindings := [⟨"PATH", some (Text.join ":" host.searchPath), true, false⟩]
  scopes := []
  functions := []
  hashed := []
  aliases := []
  active := []
  traps := []
  heard := []
  caught := []
  options := []
  descriptors := [(0, .null), (1, .channel .output), (2, .channel .diagnostics)]
  directory := files.currentPath
  mask := 18
  jobs := []
  lastJob := none
  status := 0
  time := 0
  limit := limit
  loops := 0
  calls := 0
  line := 0
  command := none
  optionOffset := 0
  trapStatus := none
  substituted := none
  files := files
  programs := host.programs
  opened := []
  pipes := []
  printed := []
  signals := []
  births := []
  held := 0
  fresh := processNumber + 1
  steps := stepLimit limit

/-- What a command does from its start on: how it ends, and the state after all that goes on in the
background. -/
def follow (command : Command) (start : Shell.State) : Shell.Ending × Shell.State :=
  let run := Shell.evaluate Shell.nestingLimit
  let launch : Shell.Launch := ⟨command.program, command.arguments, fun _ => Shell.setStatus 127⟩
  let whole : Shell.Action Shell.Ending := do
    let ending ← Shell.conclude run (Shell.execute run launch)
    Shell.runBirths run Shell.backgroundDepth true
    pure ending
  match whole start with
  | .ok ending final => (ending, final)
  | .error _ final => (.overdue, final)

/-- What the programs of the system do. -/
def smallSystem : Programs := fun host seen command limit =>
  match follow command (host.startingState seen limit) with
  | (.exited status, final) => ⟨.exited status, final.shown⟩
  | (.killed _, final) => ⟨.killed, final.shown⟩
  | (.overdue, _) => ⟨.overdue, []⟩

end CompiledViews.Host
