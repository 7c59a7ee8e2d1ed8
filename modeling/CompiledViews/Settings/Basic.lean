import CompiledViews.Listing.Style
import CompiledViews.Settings.View

/-!
# Settings

What can be chosen about compiling a source and showing the result.
-/

namespace CompiledViews

/-- The settings of a run. `keepEverything` keeps all code of the program when optimizing, not only
what is annotated; `kotlinOnlyConsumers` leaves out checks that only callers in Java need;
`decompileHidden` computes the views that are not visible as well. -/
structure Settings where
  optimize : Bool
  keepEverything : Bool
  minApiLevel : Nat
  compilerFlags : Text
  r8Rules : Text
  kotlinOnlyConsumers : Bool
  views : VisibleViews
  decompileHidden : Bool
  style : Style
  androidHome : Option Text
  kotlinHome : Option Text
  scratchDirectory : Option Text
deriving DecidableEq, Repr

namespace Settings

/-- The settings where nothing is chosen. -/
def default : Settings where
  optimize := true
  keepEverything := true
  minApiLevel := 21
  compilerFlags := []
  r8Rules := []
  kotlinOnlyConsumers := true
  views := .default
  decompileHidden := true
  style := .default
  androidHome := none
  kotlinHome := none
  scratchDirectory := none

/-- Whether a view is computed: it is visible, or hidden views are computed as well. -/
def computes (settings : Settings) (view : View) : Bool :=
  settings.decompileHidden || settings.views.shows view

def computedViews (settings : Settings) : List View := View.all.filter settings.computes

end Settings

end CompiledViews
