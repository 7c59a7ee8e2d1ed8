import CompiledViews.Host.Basic
import CompiledViews.Host.Output
import CompiledViews.Run.Task

/-!
# Running commands

A command is launched on a host, listened to until it ends, and given up when the run is cancelled
before that. What the programs of the host do is up to them.
-/

namespace CompiledViews

/-- How a program ends: with a status, by a signal, or not within the time that it has. -/
inductive ProgramEnd where
  | exited (status : Nat)
  | killed
  | overdue
deriving DecidableEq, Repr

/-- What a program does: how it ends, and what it prints to its channels, in order. -/
structure Performance where
  ending : ProgramEnd
  printed : List (Channel × Bytes)
deriving DecidableEq, Repr

/-- What the programs of a host do when a command is launched there, given the files as it sees them
and the milliseconds that it has. -/
abbrev Programs := Host → FileTree → Command → Option Nat → Performance

/-- What comes of a command that is cancelled after some milliseconds, if it has not ended by
then. -/
def Host.run (programs : Programs) (host : Host) (command : Command) (cancelAfter : Option Nat) :
    Outcome :=
  if cancelAfter = some 0 then .error .cancelled
  else
    match host.launch host.files command with
    | .error error => .error (.launch command.program error.message)
    | .ok (seen, _) =>
      let performance := programs host seen command cancelAfter
      match performance.ending with
      | .exited status => .ok ⟨status, heardText performance.printed⟩
      | .killed => .ok ⟨-1, heardText performance.printed⟩
      | .overdue => .error .cancelled

end CompiledViews
