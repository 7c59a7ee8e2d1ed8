import CompiledViews.Event.Wire
import CompiledViews.Text.Utf8

/-!
# Frames

A stream of JSON values is a sequence of frames. A frame states the size of its body in bytes of
UTF-8 before the body, so a reader knows where the next one begins.
-/

namespace CompiledViews

def frame (body : Text) : Text :=
  "Content-Length: " ++ Text.ofNat body.utf8Length ++ "\r\n\r\n" ++ body

/-- The frame of a JSON value, whose keys are in order. -/
def Json.frame (value : Json) : Text := CompiledViews.frame value.sorted.text

def Event.frame (style : Style) (event : Event) : Text :=
  (Message.ofEvent style event).notification.frame

end CompiledViews
