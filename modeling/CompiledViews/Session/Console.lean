import CompiledViews.Event.Frame
import CompiledViews.Host.Output
import CompiledViews.Text.Blank

/-!
# The console

Events as they are printed: for a reader, or as frames for a front end. Results go to the output,
and what tells about the run goes to the diagnostics. Nothing comes after a listing that does not
fit the style.
-/

namespace CompiledViews

/-- Whether an event can be printed in a style. -/
def Event.Fits (style : Style) : Event → Prop
  | .content _ (.classes classes) => Listing.Fits classes style
  | _ => True

instance (style : Style) : (event : Event) → Decidable (event.Fits style)
  | .content _ (.classes classes) => inferInstanceAs (Decidable (Listing.Fits classes style))
  | .content _ (.unreadable _) | .content _ .empty | .status .. | .log .. => .isTrue trivial

/-- A text that is printed. -/
structure Printed where
  channel : Channel
  text : Text
deriving DecidableEq, Repr

namespace Printed

/-- A line of the output. -/
def line (text : Text) : Printed := ⟨.output, text ++ "\n"⟩

def diagnostic (text : Text) : Printed := ⟨.diagnostics, text ++ "\n"⟩

def textOn (channel : Channel) (printed : List Printed) : Text :=
  (printed.filter fun piece => piece.channel == channel).flatMap Printed.text

end Printed

namespace Console

/-- A fraction in percent, rounded to a whole number. -/
def percent (fraction : Binary) : Nat :=
  (Binary.multiply .single fraction (.ofNat .single 100)).toNatRounded

/-- A status, with the progress before it. -/
def statusLine (message : Text) (fraction : Binary) : Text :=
  "[" ++ Text.padLeft 3 (Text.ofNat (percent fraction)) ++ "%] " ++ message

def isLineEnd (character : Char) : Bool := character == '\r' || character == '\n'

/-- The line above the contents of a view. -/
def heading (view : View) : Text := "=== " ++ view.title ++ " ==="

/-- An event for a reader, with listings in a style. -/
def shown (style : Style) : Event → List Printed
  | .status message fraction =>
    if message = [] then [] else [.diagnostic (statusLine message fraction)]
  | .log text isError =>
    let trimmed := Text.dropRightWhile isLineEnd text
    if trimmed = [] then [] else [if isError then .diagnostic trimmed else .line trimmed]
  | .content view (.classes classes) =>
    [.line (heading view), ⟨.output, (Listing.ofClasses classes style).text⟩]
  | .content view (.unreadable message) => [.line (heading view), .line message]
  | .content _ .empty => []

/-- Events as they are printed, framed or for a reader. -/
def print (framed : Bool) (style : Style) (events : List Event) : List Printed :=
  if framed then events.map fun event => ⟨.output, event.frame style⟩
  else events.flatMap (shown style)

/-- What a reader sees of an event that cannot be printed: the line above its listing. -/
def begun : Event → List Printed
  | .content view _ => [.line (heading view)]
  | _ => []

/-- What is printed up to the first event that does not fit the style, if there is one. -/
def interrupted? (framed : Bool) (style : Style) (events : List Event) : Option (List Printed) :=
  (events.find? fun event => ¬event.Fits style).map fun event =>
    print framed style (events.takeWhile (·.Fits style)) ++ if framed then [] else begun event

def statusMessage? : Event → Option Text
  | .status message _ => some message
  | _ => none

def lastStatus (events : List Event) : Text :=
  (((events.filterMap statusMessage?).filter (· != [])).getLast?).getD []

/-- Whether a run has done what it was to do, told by its last status. -/
def succeeded (events : List Event) : Bool := !Text.startsWith (lastStatus events) "Error"

end Console

end CompiledViews
