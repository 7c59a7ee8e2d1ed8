import CompiledViews.Proofs.Event.Wire
import CompiledViews.Proofs.Text.Utf8
import CompiledViews.Session.Basic
import Mathlib.Data.List.TakeWhile

/-!
# Streams of frames

A frame begins with the number of bytes of its body, so what stands in a body is never taken for
the beginning of another frame: the bytes of frames one after the other tell where each one ends,
and which texts the bodies are. A session that is to print for a front end prints the frames of the
events of its run, and nothing else. Each of them is a notification, from which the event can be
read. The stream of a session that a listing stops ends before the frame of that listing.
-/

namespace CompiledViews

section frame

variable {body other : Text} {bodies others : List Text}

theorem length_utf8 (text : Text) : (Text.utf8 text).length = text.utf8Length := by
  have counted (length : Nat) : text.foldl (fun length character => length + character.utf8Size)
      length = length + (Text.utf8 text).length := by
    induction text generalizing length with
    | nil => simp
    | cons character text ih =>
        rw [List.foldl_cons, ih, Text.utf8_cons, List.length_append,
          String.length_utf8EncodeChar]
        omega
  rw [Text.utf8Length, counted, Nat.zero_add]

theorem ofNat_injective : Function.Injective Text.ofNat := by
  intro left right same
  rw [← Nat.ofDigitChars_ten_toDigits (n := left), ← Nat.ofDigitChars_ten_toDigits (n := right)]
  exact congrArg (Nat.ofDigitChars 10 · 0) same

/-- The byte that ends the line of the header is none of its digits. -/
theorem return_not_mem_utf8_ofNat (number : Nat) : 13 ∉ Text.utf8 (Text.ofNat number) := by
  intro member
  rcases List.mem_flatMap.1 member with ⟨digit, inDigits, isByte⟩
  have isDigit := Nat.isDigit_of_mem_toDigits (by decide) (by decide) inDigits
  have bounds : 48 ≤ digit.toNat ∧ digit.toNat ≤ 57 := by
    simpa [Char.isDigit, UInt32.le_iff_toNat_le] using isDigit
  rw [Text.utf8_of_ascii (by omega), List.mem_singleton, ← UInt8.toNat_inj,
    UInt8.toNat_ofNat'] at isByte
  simp only [UInt8.reduceToNat] at isByte
  omega

/-- What the size of a body is told with stands between two marks that it does not hold. -/
theorem append_cons_inj {α : Type} {mark : α} {left right left' right' : List α}
    (absent : mark ∉ left) (absent' : mark ∉ left')
    (same : left ++ mark :: right = left' ++ mark :: right') : left = left' ∧ right = right' := by
  induction left generalizing left' with
  | nil =>
      cases left' with
      | nil => simpa using same
      | cons second left' => exact absurd (List.cons.inj same).1 (List.ne_of_not_mem_cons absent')
  | cons first left ih =>
      cases left' with
      | nil => exact absurd (List.cons.inj same).1.symm (List.ne_of_not_mem_cons absent)
      | cons second left' =>
          simp only [List.mem_cons, not_or] at absent absent'
          simp only [List.cons_append, List.cons.injEq] at same
          rcases ih absent.2 absent'.2 same.2 with ⟨rfl, isRight⟩
          exact ⟨by rw [same.1], isRight⟩

/-- What stands before the body in its frame. -/
def frameHeader (size : Nat) : Bytes :=
  Text.utf8 "Content-Length: " ++ (Text.utf8 (Text.ofNat size) ++ Text.utf8 "\r\n\r\n")

theorem utf8_frame (body : Text) :
    Text.utf8 (frame body) = frameHeader (Text.utf8 body).length ++ Text.utf8 body := by
  have joined (name size mark : Text) : Text.utf8 (name ++ size ++ mark ++ body) =
      Text.utf8 name ++ (Text.utf8 size ++ Text.utf8 mark) ++ Text.utf8 body := by
    simp only [Text.utf8_append, List.append_assoc]
  rw [length_utf8]
  exact joined _ _ _

/-- A frame in front of bytes tells its body, and where it ends. -/
theorem utf8_frame_append_inj {rest rest' : Bytes}
    (same : Text.utf8 (frame body) ++ rest = Text.utf8 (frame other) ++ rest') :
    body = other ∧ rest = rest' := by
  rw [utf8_frame, utf8_frame, frameHeader, frameHeader, List.append_assoc, List.append_assoc,
    List.append_assoc, List.append_assoc, List.append_assoc, List.append_assoc] at same
  have behindName := List.append_cancel_left same
  rcases append_cons_inj (return_not_mem_utf8_ofNat _) (return_not_mem_utf8_ofNat _)
    behindName with ⟨sameSize, behindSize⟩
  have sameLength := ofNat_injective (Text.utf8_injective sameSize)
  have behindHeader := @List.append_cancel_left _ (Text.utf8 "\n\r\n") _ _ behindSize
  rcases List.append_inj behindHeader sameLength with ⟨sameBody, sameRest⟩
  exact ⟨Text.utf8_injective sameBody, sameRest⟩

/-- The bytes of frames tell which bodies they are of, and in which order. -/
theorem flatMap_utf8_frame_inj
    (same : (bodies.flatMap fun body => Text.utf8 (frame body)) =
      others.flatMap fun body => Text.utf8 (frame body)) : bodies = others := by
  have isFrame (body : Text) (rest : Bytes) : Text.utf8 (frame body) ++ rest ≠ [] := by
    intro isEmpty
    have parts := (List.append_eq_nil_iff.1 isEmpty).1
    rw [utf8_frame, List.append_eq_nil_iff, frameHeader, List.append_eq_nil_iff] at parts
    cases parts.1.1
  induction bodies generalizing others with
  | nil =>
      cases others with
      | nil => rfl
      | cons other others => exact absurd same.symm (isFrame other _)
  | cons body bodies ih =>
      cases others with
      | nil => exact absurd same (isFrame body _)
      | cons other others =>
          rcases utf8_frame_append_inj same with ⟨rfl, sameRest⟩
          rw [ih sameRest]

end frame

namespace Json

/-- The compact text of a value, as it stands in its frame. -/
def body (value : Json) : Text := value.sorted.text

/-- The bytes of the frames of values, one after the other. -/
def stream (values : List Json) : Bytes := values.flatMap fun value => Text.utf8 value.frame

end Json

section notification

/-- The messages that events are sent as. Of classes their listing in a style is sent. -/
inductive Message.IsOf (style : Style) : Event → Message → Prop
  | status (message : Text) (fraction : Binary) :
      IsOf style (.status message fraction) (.status message fraction)
  | log (text : Text) (isError : Bool) : IsOf style (.log text isError) (.log text isError)
  | classes (view : View) (classes : List Class) :
      IsOf style (.content view (.classes classes)) (.content view
        (.listing (Listing.ofClasses classes style).text
          (Listing.ofClasses classes style).jumps.pairs
          (Listing.ofClasses classes style).sourceToCode.pairs
          (Listing.ofClasses classes style).codeToSource.pairs))
  | unreadable (view : View) (message : Text) :
      IsOf style (.content view (.unreadable message)) (.content view (.unreadable message))
  | empty (view : View) : IsOf style (.content view .empty) (.content view .empty)

theorem Message.isOf_ofEvent (style : Style) (event : Event) :
    Message.IsOf style event (.ofEvent style event) := by
  cases event with
  | status message fraction => exact .status message fraction
  | log text isError => exact .log text isError
  | content view contents =>
      cases contents with
      | classes classes => exact .classes view classes
      | unreadable message => exact .unreadable view message
      | empty => exact .empty view

/-- A value whose body notifies of an event: its parameters hold the members of the message that the
event is sent as, and are read back as this message. -/
def Json.Notifies (style : Style) (event : Event) (value : Json) : Prop :=
  ∃ message params, Message.IsOf style event message ∧
    value.sorted = .object [("jsonrpc", .string "2.0"), ("method", .string "PipelineEvent"),
      ("params", params)] ∧
    value.body = "\x7b\"jsonrpc\":\"2.0\",\"method\":\"PipelineEvent\",\"params\":" ++
      params.text ++ "\x7d" ∧
    message.ToldBy params ∧ (message.IsSendable → Message.ofJson? params = some message)

theorem notifies_notification (style : Style) (event : Event) :
    (Message.ofEvent style event).notification.Notifies style event := by
  have isSorted : (Message.ofEvent style event).notification.sorted =
      .object [("jsonrpc", .string "2.0"), ("method", .string "PipelineEvent"),
        ("params", (Message.ofEvent style event).toJson.sorted)] := by
    rw [Message.notification, Json.sorted]
    rfl
  refine ⟨_, _, Message.isOf_ofEvent style event, isSorted, ?_, Message.toldBy_sorted_toJson _, ?_⟩
  · rw [Json.body, isSorted]
    rfl
  · intro isSendable
    exact Message.ofJson?_of_toldBy isSendable (Message.toldBy_sorted_toJson _)

end notification

section session

theorem textOn_self (channel : Channel) (texts : List Text) :
    Printed.textOn channel (texts.map fun text => ⟨channel, text⟩) = texts.flatten := by
  induction texts with
  | nil => rfl
  | cons text texts ih => simp_all [Printed.textOn]

theorem textOn_other {channel other : Channel} (differ : other ≠ channel) (texts : List Text) :
    Printed.textOn channel (texts.map fun text => ⟨other, text⟩) = [] := by
  induction texts with
  | nil => rfl
  | cons text texts ih => simp_all [Printed.textOn]

/-- What is printed for a front end. -/
theorem printed_framed (style : Style) (events : List Event) :
    Text.utf8 (Printed.textOn .output (Console.print true style events)) =
        Json.stream (events.map fun event => (Message.ofEvent style event).notification) ∧
      Printed.textOn .diagnostics (Console.print true style events) = [] := by
  have isFrames : Console.print true style events =
      (events.map (Event.frame style)).map fun text => ⟨.output, text⟩ := by
    rw [List.map_map]
    rfl
  rw [isFrames, textOn_self, textOn_other (by decide)]
  refine ⟨?_, rfl⟩
  clear isFrames
  induction events with
  | nil => rfl
  | cons event events ih =>
      rw [List.map_cons, List.flatten_cons, Text.utf8_append, ih]
      rfl

/-- What is printed for a front end until a listing does not fit its style. -/
theorem printed_untilFault {invocation : Invocation} (isFramed : invocation.json = true)
    (style : Style) (events : List Event) :
    (Session.untilFault invocation style events).printed =
      Console.print true style (events.takeWhile (·.Fits style)) := by
  rw [Session.untilFault, Console.interrupted?]
  cases isFound : events.find? fun event => ¬event.Fits style with
  | none =>
      have allFit : ∀ event ∈ events, event.Fits style := by
        simpa using isFound
      have isAll : events.takeWhile (·.Fits style) = events :=
        List.takeWhile_eq_self_iff.2 (by simpa using allFit)
      rw [isAll, Option.map_none, Session.finished, isFramed]
  | some event =>
      rw [Option.map_some, isFramed, if_pos rfl, List.append_nil]

/-- Frames can be told apart: equal bytes are the frames of values with the same compact texts, for
each frame tells how many bytes its body has. These are the bytes that a session prints for a front
end, one frame for each event of its run and in the same order, and the body of each frame notifies
of its event. A listing that does not fit its style ends the stream before its frame. -/
theorem map_body_eq_of_stream_eq :
    (∀ values others : List Json, Json.stream values = Json.stream others →
      values.map Json.body = others.map Json.body) ∧
    (∀ value : Json, Text.utf8 value.frame =
      Text.utf8 "Content-Length: " ++
        (Text.utf8 (Text.ofNat (Text.utf8 value.body).length) ++ Text.utf8 "\r\n\r\n") ++
        Text.utf8 value.body) ∧
    (∀ (style : Style) (event : Event),
      (Message.ofEvent style event).notification.Notifies style event) ∧
    (∀ (style : Style) (events : List Event),
      Text.utf8 (Printed.textOn .output (Console.print true style events)) =
        Json.stream (events.map fun event => (Message.ofEvent style event).notification)) ∧
    ∀ (host : Host) (behaviour : Tool → ToolBehaviour) (arguments : List Text)
      (invocation : Invocation) (style : Style) (events : List Event),
      Invocation.read arguments = .ok invocation → invocation.json = true →
      Session.events host behaviour invocation = .ok (style, events) →
      Text.utf8 (Printed.textOn .output (Session.run host behaviour arguments).printed) =
          Json.stream (events.map fun event => (Message.ofEvent style event).notification) ∧
        Printed.textOn .diagnostics (Session.run host behaviour arguments).printed = [] ∧
        Text.utf8 (Printed.textOn .output (Session.perform host behaviour arguments).printed) =
          Json.stream ((events.takeWhile (·.Fits style)).map fun event =>
            (Message.ofEvent style event).notification) := by
  refine ⟨?_, ?_, notifies_notification, ?_, ?_⟩
  · intro values others same
    apply flatMap_utf8_frame_inj
    rw [List.flatMap_map, List.flatMap_map]
    exact same
  · intro value
    exact utf8_frame value.body
  · intro style events
    exact (printed_framed style events).1
  · intro host behaviour arguments invocation style events isRead isFramed hasRun
    have isPrinted : (Session.run host behaviour arguments).printed =
        Console.print true style events := by
      simp only [Session.run, Session.runWith, isRead, hasRun, Session.finished, isFramed]
    have isPerformed : (Session.perform host behaviour arguments).printed =
        Console.print true style (events.takeWhile (·.Fits style)) := by
      simp only [Session.perform, Session.runWith, isRead, hasRun, printed_untilFault isFramed]
    rw [isPrinted, isPerformed]
    exact ⟨(printed_framed style events).1, (printed_framed style events).2,
      (printed_framed style _).1⟩

/-- A host with a source and no tools. -/
def toolless : Host where
  files := ⟨.directory [("w", .directory [("Main.kt", .file [])])], ["w"]⟩
  environment := ⟨none, none, none, none⟩
  searchPath := []
  programs := []
  temporary := "/w/t"

/-- Tools that do nothing. -/
def idle (_ : Tool) : ToolBehaviour := ⟨⟨0, []⟩, fun _ => pure ()⟩

/-- What is asked for: views of the source, printed for a front end. -/
def framedInvocation : Invocation where
  activity := .disassemble
  source := "Main.kt"
  scratchDirectory := none
  settingsFile := none
  androidHome := none
  kotlinHome := none
  debug := false
  json := true
  choices := ⟨false, false, none, [], false⟩

/-- Two objects with the same members in another order, and a run that fails at its first tool. -/
theorem map_body_eq_of_stream_eq_toolless :
    Json.stream [.object [("b", .null), ("a", .string "→")]] =
        Json.stream [.object [("a", .string "→"), ("b", .null)]] ∧
      [Json.object [("b", .null), ("a", .string "→")]].map Json.body =
        [Json.object [("a", .string "→"), ("b", .null)]].map Json.body ∧
      Invocation.read ["--json", "disassemble", "Main.kt"] = .ok framedInvocation ∧
      framedInvocation.json = true ∧
      ∃ style events, events.length = 6 ∧
        Session.events toolless idle framedInvocation = .ok (style, events) ∧
        (∀ event ∈ events, (Message.ofEvent style event).notification.Notifies style event) ∧
        Text.utf8 (Printed.textOn .output
            (Session.run toolless idle ["--json", "disassemble", "Main.kt"]).printed) =
          Json.stream (events.map fun event => (Message.ofEvent style event).notification) := by
  rcases map_body_eq_of_stream_eq with ⟨tells, _, notifies, _, prints⟩
  have sameBytes : Json.stream [.object [("b", .null), ("a", .string "→")]] =
      Json.stream [.object [("a", .string "→"), ("b", .null)]] := by
    decide
  have isRead : Invocation.read ["--json", "disassemble", "Main.kt"] = .ok framedInvocation := by
    decide
  have isCounted : ((Session.events toolless idle framedInvocation).toOption.map
      fun run => run.2.length) = some 6 := by
    decide +kernel
  refine ⟨sameBytes, tells _ _ sameBytes, isRead, rfl, ?_⟩
  cases hasRun : Session.events toolless idle framedInvocation with
  | error error =>
      rw [hasRun] at isCounted
      cases isCounted
  | ok run =>
      rw [hasRun] at isCounted
      exact ⟨run.1, run.2, Option.some.inj isCounted, rfl, fun event _ => notifies run.1 event,
        (prints _ _ _ _ _ _ isRead rfl hasRun).1⟩

end session

end CompiledViews
