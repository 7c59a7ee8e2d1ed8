import CompiledViews.Text.Utf8

/-!
# Output of programs

A program prints bytes to two channels. They are heard line by line, and what it prints altogether
is its lines in the order in which they are complete, each one turned into text by itself.
-/

namespace CompiledViews

/-- A channel that is printed to. -/
inductive Channel where
  | output
  | diagnostics
deriving DecidableEq, Repr

/-- What comes from a channel: bytes that are printed to it, or its end. -/
inductive Arrival where
  | bytes (printed : Bytes)
  | close
deriving DecidableEq, Repr

namespace Bytes

/-- The byte that ends a line. -/
def lineFeed : UInt8 := 0x0A

/-- The lines of bytes, each one with its end; the last one may have none. -/
def lines : Bytes → List Bytes
  | [] => []
  | byte :: rest =>
    if byte = lineFeed then [byte] :: lines rest
    else
      match lines rest with
      | [] => [[byte]]
      | line :: others => (byte :: line) :: others

end Bytes

/-- The lines of bytes as text, whatever they are. -/
def heardLines (bytes : Bytes) : List Text := bytes.lines.map Utf8.lossyText

/-- What is heard of the channels: the lines so far, newest first, and on each channel the bytes of
an unfinished one, newest first. -/
structure Listener where
  lines : List Text
  output : Bytes
  diagnostics : Bytes
deriving DecidableEq, Repr

namespace Listener

/-- Nothing heard. -/
def new : Listener := ⟨[], [], []⟩

/-- The bytes of the unfinished line on a channel. -/
def unfinished (listener : Listener) : Channel → Bytes
  | .output => listener.output
  | .diagnostics => listener.diagnostics

/-- The listener with other bytes of the unfinished line on a channel. -/
def setUnfinished (listener : Listener) (channel : Channel) (bytes : Bytes) : Listener :=
  match channel with
  | .output => { listener with output := bytes }
  | .diagnostics => { listener with diagnostics := bytes }

/-- The listener after the end of the line on a channel; an empty one is none. -/
def endLine (listener : Listener) (channel : Channel) : Listener :=
  match listener.unfinished channel with
  | [] => listener
  | bytes =>
    { listener with lines := Utf8.lossyText bytes.reverse :: listener.lines }.setUnfinished
      channel []

/-- The listener after one more byte on a channel. -/
def hear (channel : Channel) (listener : Listener) (byte : UInt8) : Listener :=
  let heard := listener.setUnfinished channel (byte :: listener.unfinished channel)
  if byte = Bytes.lineFeed then heard.endLine channel else heard

/-- The listener after what comes next from a channel. -/
def receive (listener : Listener) : Channel × Arrival → Listener
  | (channel, .bytes printed) => printed.foldl (hear channel) listener
  | (channel, .close) => listener.endLine channel

end Listener

/-- The text of what comes from the channels, in order. -/
def heard (arrivals : List (Channel × Arrival)) : Text :=
  (arrivals.foldl Listener.receive .new).lines.reverse.flatten

/-- The text of what is printed to the channels, in order, until both of them are closed. -/
def heardText (printed : List (Channel × Bytes)) : Text :=
  heard (printed.map (fun (channel, bytes) => (channel, Arrival.bytes bytes)) ++
    [(Channel.output, .close), (.diagnostics, .close)])

end CompiledViews
