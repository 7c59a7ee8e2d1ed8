import CompiledViews.Text.Basic

/-!
# Views

The three views of a compiled source, and a choice among them.
-/

namespace CompiledViews

/-- A view of the compiled source. -/
inductive View where
  | byteCode
  | dex
  | oat
deriving DecidableEq, Repr

namespace View

/-- All views, in the order in which they are computed. -/
def all : List View := [byteCode, dex, oat]

def title : View → Text
  | byteCode => "Byte Code"
  | dex => "DEX"
  | oat => "OAT"

/-- The name of a view in settings and events. -/
def name : View → Text
  | byteCode => "byteCode"
  | dex => "dex"
  | oat => "oat"

def ofName? (name : Text) : Option View := all.find? fun view => view.name == name

end View

/-- For each view whether it is visible. -/
structure VisibleViews where
  byteCode : Bool
  dex : Bool
  oat : Bool
deriving DecidableEq, Repr

namespace VisibleViews

/-- The views that are visible unless others are chosen. -/
def default : VisibleViews := ⟨false, true, true⟩

/-- The given views and no other. -/
def only (views : List View) : VisibleViews :=
  ⟨views.contains .byteCode, views.contains .dex, views.contains .oat⟩

def shows (visible : VisibleViews) : View → Bool
  | .byteCode => visible.byteCode
  | .dex => visible.dex
  | .oat => visible.oat

end VisibleViews

end CompiledViews
