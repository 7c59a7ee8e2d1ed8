import CompiledViews.Event.Basic

/-!
# Progress

How far a run is, in steps out of a total. The count goes up only, and may pass the total; what is
reported never does.
-/

namespace CompiledViews

/-- The greatest number that a count of steps can be. -/
def maxSteps : Nat := Nat.pow 2 32 - 1

/-- Steps done out of a positive total. -/
structure Progress where
  total : Nat
  step : Nat
deriving DecidableEq, Repr

namespace Progress

/-- No step done out of a total, which is at least one. -/
def ofTotal (total : Nat) : Progress := ⟨max total 1, 0⟩

/-- Further steps done. -/
def advance (progress : Progress) (count : Nat) : Progress :=
  { progress with step := min (progress.step + count) maxSteps }

/-- All steps done, if there were fewer. -/
def skipToEnd (progress : Progress) : Progress :=
  { progress with step := max progress.step progress.total }

/-- The steps that are reported as done. -/
def reached (progress : Progress) : Nat := min progress.step progress.total

/-- The part of the steps that is reported as done, in single precision. -/
def fraction (progress : Progress) : Binary :=
  Binary.divide .single (.ofNat .single progress.reached) (.ofNat .single progress.total)

end Progress

/-- What a run reports, with its progress still exact. -/
inductive Report where
  | status (message : Text) (progress : Progress)
  | log (text : Text) (isError : Bool)
  | content (view : View) (content : Content)
deriving DecidableEq, Repr

/-- A report as an event. -/
def Report.event : Report → Event
  | status message progress => .status message progress.fraction
  | log text isError => .log text isError
  | content view shown => .content view shown

end CompiledViews
