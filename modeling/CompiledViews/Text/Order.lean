import CompiledViews.Text.Basic

/-!
# Order of texts

Texts are ordered by the code points of their characters, which is the order of their bytes in
UTF-8.
-/

namespace CompiledViews.Text

/-- Whether the left text comes before the right one. -/
def precedes : Text → Text → Bool
  | [], [] => false
  | [], _ :: _ => true
  | _ :: _, [] => false
  | left :: lefts, right :: rights =>
    left.toNat < right.toNat || (left.toNat == right.toNat && precedes lefts rights)

/-- Whether the left text does not come after the right one. -/
def notAfter (left right : Text) : Bool := !precedes right left

def sort (texts : List Text) : List Text := texts.mergeSort notAfter

end CompiledViews.Text
