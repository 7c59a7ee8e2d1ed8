import CompiledViews.Dump.Content
import CompiledViews.Number.Binary
import CompiledViews.Settings.View

/-!
# Events

What a run reports while it goes on.
-/

namespace CompiledViews

/-- A report of a run: how far it is, the output of a tool, or what a view has to show. -/
inductive Event where
  | status (message : Text) (fraction : Binary)
  | log (text : Text) (isError : Bool)
  | content (view : View) (content : Content)
deriving DecidableEq, Repr

end CompiledViews
