import CompiledViews.FileTree.Action
import CompiledViews.Run.Progress
import CompiledViews.Toolchain.Command

/-!
# Tasks

A task is what one thread of a run does: a step, and what it does after that. Steps whose result is
not known beforehand are followed by a task for each result.
-/

namespace CompiledViews

/-- What a tool that was run leaves behind: its exit code and its output. -/
structure ToolResult where
  exitCode : Int
  output : Text
deriving DecidableEq, Repr

/-- Whether a tool did what it was to do. -/
def ToolResult.success (result : ToolResult) : Bool := result.exitCode = 0

/-- Why a tool has no result: it could not be launched, it could not be listened to, or the run was
cancelled. -/
inductive ToolError where
  | launch (program reason : Text)
  | listening (reason : Text)
  | cancelled
deriving DecidableEq, Repr

/-- The error in words. -/
def ToolError.message : ToolError → Text
  | launch program reason => "failed to launch " ++ program ++ ": " ++ reason
  | listening reason => "I/O error while running tool: " ++ reason
  | cancelled => "cancelled"

/-- What comes of running a tool. -/
abbrev Outcome := Except ToolError ToolResult

/-- The result of a tool for the run, unless that is cancelled: a tool that could not be run counts
as one that failed, and its error as its output. -/
def stageResult? : Outcome → Option ToolResult
  | .ok result => some result
  | .error .cancelled => none
  | .error error => some ⟨-1, error.message⟩

/-- What a thread does from a point on.

* `update`, `advance` and `skipToEnd` report a status after changing the progress;
* `log` and `deliver` report output and contents, the latter once for each view;
* `spawn` starts a thread and registers it, `abortAll` stops the registered threads before their
  next pause, and `awaitAll` goes on when there is no registered thread that has not ended;
* `pause` is a point where a thread that is to stop does stop;
* `askCancelled` asks whether the run is cancelled, and `call` runs a tool;
* `change` changes files and `look` looks at them. -/
inductive Task where
  | done
  | update (message : Text) (next : Task)
  | advance (message : Text) (count : Nat) (next : Task)
  | skipToEnd (message : Text) (next : Task)
  | log (text : Text) (isError : Bool) (next : Task)
  | deliver (view : View) (content : Content) (next : Task)
  | spawn (child next : Task)
  | abortAll (next : Task)
  | awaitAll (next : Task)
  | pause (next : Task)
  | askCancelled (next : Bool → Task)
  | call (tool : Tool) (command : Command) (next : Outcome → Task)
  | change (action : FileAction Unit) (next : Option OsError → Task)
  | look (next : FileTree → Task)

end CompiledViews
