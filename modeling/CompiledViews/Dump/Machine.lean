import CompiledViews.Code.Class
import CompiledViews.Dump.Error
import CompiledViews.Text.Lines

/-!
# Reading machines

A dump is read by a machine that is fed one line after the other. Between two lines it is in a
scope, which holds what it has read of the class at hand; a line takes it to the next scope and may
complete a class. What the machine does on a line depends on the scope and the line alone, so
feeding it two texts one after the other is feeding it both together.
-/

namespace CompiledViews.Dump

/-- A machine that reads the lines of a dump. -/
structure Machine (Scope : Type) where
  start : Scope
  step : Scope → Text → Except Fault (List Class × Scope)
  finish : Scope → Except Fault (List Class)

namespace Machine

variable {Scope : Type}

/-- The classes that lines complete and the scope after them, where `before` lines come before
them. -/
def feed (machine : Machine Scope) : Nat → Scope → List Text → Except Error (List Class × Scope)
  | _, scope, [] => .ok ([], scope)
  | before, scope, line :: rest =>
    match machine.step scope line with
    | .error fault => .error (fault.locate before)
    | .ok (completed, next) =>
      match machine.feed (before + 1) next rest with
      | .error error => .error error
      | .ok (later, final) => .ok (completed ++ later, final)

/-- The classes that lines and the end of the dump after them complete. -/
def readLines (machine : Machine Scope) (lines : List Text) : Except Error (List Class) :=
  match machine.feed 0 machine.start lines with
  | .error error => .error error
  | .ok (completed, final) =>
    match machine.finish final with
    | .error fault => .error (fault.locate lines.length)
    | .ok last => .ok (completed ++ last)

def read (machine : Machine Scope) (text : Text) : Except Error (List Class) :=
  machine.readLines (Text.lines text)

end Machine

end CompiledViews.Dump
