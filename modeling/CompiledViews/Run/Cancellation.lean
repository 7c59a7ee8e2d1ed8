import CompiledViews.Text.Basic

/-!
# Cancellation

A run is cancelled through the one handle of its signal. Whoever has to end with the run holds a
token, and a token of a signal tells from then on that it is cancelled, also when the handle is
gone.
-/

namespace CompiledViews

/-- The signal of a run: whether its handle is still there, and whether the run is cancelled. -/
structure CancelSignal where
  held : Bool
  raised : Bool
deriving DecidableEq, Repr

/-- What asks whether a run is cancelled: a token of the signal, or one that nobody can cancel. -/
inductive CancelToken where
  | ofSignal
  | never
deriving DecidableEq, Repr

namespace CancelSignal

/-- The signal of a run that is about to begin. -/
def new : CancelSignal := ⟨true, false⟩

/-- The signal after its handle has been used to cancel, which takes a handle. -/
def cancel (signal : CancelSignal) : CancelSignal :=
  { signal with raised := signal.raised || signal.held }

/-- The signal without its handle. -/
def drop (signal : CancelSignal) : CancelSignal := { signal with held := false }

/-- One more token, which takes a handle. -/
def token? (signal : CancelSignal) : Option CancelToken :=
  if signal.held then some .ofSignal else none

end CancelSignal

/-- Whether a token tells that the run is cancelled, so that waiting for that is over. -/
def CancelToken.isCancelled (signal : CancelSignal) : CancelToken → Bool
  | ofSignal => signal.raised
  | never => false

end CompiledViews
