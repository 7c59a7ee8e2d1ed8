import CompiledViews.Listing.Basic

/-!
# Listings as sequences of calls

A builder is used by calling its operations one after the other, in whatever order. The text after
some calls is made of the lines of each of them, so a call writes its first line at the number of
lines that the calls before it have written. The listing of classes comes from one such sequence of
calls.
-/

namespace CompiledViews.Listing

/-- One use of a builder. -/
inductive Call where
  | startClass (header : Text)
  | startMethod (method : Method)
  | addInstruction (instruction : Instruction) (callee : Option Text)
  | endMethod
deriving DecidableEq, Repr

namespace Call

/-- The lines that a call writes. -/
def lines (style : Style) : Call → List Text
  | startClass header => [header]
  | startMethod method => methodLines style method
  | addInstruction instruction callee => [instructionLine style instruction callee]
  | endMethod => [[]]

/-- The lines that calls write, one call after the other. -/
def allLines (style : Style) (calls : List Call) : List Text := calls.flatMap (lines style)

/-- The number of the line that is written next after some calls. -/
def lineAfter (style : Style) (calls : List Call) : Nat := (allLines style calls).length

/-- The calls that list the instructions of a method. -/
def ofInstructions (byIndex : NatMap (NatMap Text)) (method : Method) : List Call :=
  method.instructions.map fun instruction =>
    addInstruction instruction (callee? byIndex method instruction)

/-- The calls that list a method. -/
def ofMethod (byIndex : NatMap (NatMap Text)) (method : Method) : List Call :=
  startMethod method :: (ofInstructions byIndex method ++ [endMethod])

/-- The calls that list a class. -/
def ofClass (byIndex : NatMap (NatMap Text)) (cls : Class) : List Call :=
  startClass cls.header :: cls.methods.flatMap (ofMethod byIndex)

/-- The calls that list classes. -/
def ofClasses (classes : List Class) : List Call :=
  classes.flatMap (ofClass (referencesByIndex classes))

@[simp]
theorem allLines_nil (style : Style) : allLines style [] = [] := rfl

@[simp]
theorem allLines_cons (style : Style) (call : Call) (calls : List Call) :
    allLines style (call :: calls) = call.lines style ++ allLines style calls := rfl

@[simp]
theorem allLines_append (style : Style) (left right : List Call) :
    allLines style (left ++ right) = allLines style left ++ allLines style right := by
  simp [allLines]

theorem lineAfter_append (style : Style) (left right : List Call) :
    lineAfter style (left ++ right) = lineAfter style left + lineAfter style right := by
  simp [lineAfter]

end Call

namespace Builder

/-- The builder after a call. -/
def perform (builder : Builder) : Call → Builder
  | .startClass header => builder.startClass header
  | .startMethod method => builder.startMethod method
  | .addInstruction instruction callee => builder.addInstruction instruction callee
  | .endMethod => builder.endMethod

/-- The builder after calls. -/
def performAll (builder : Builder) (calls : List Call) : Builder := calls.foldl perform builder

@[simp]
theorem performAll_nil (builder : Builder) : builder.performAll [] = builder := rfl

@[simp]
theorem performAll_cons (builder : Builder) (call : Call) (calls : List Call) :
    builder.performAll (call :: calls) = (builder.perform call).performAll calls := rfl

@[simp]
theorem performAll_append (builder : Builder) (left right : List Call) :
    builder.performAll (left ++ right) = (builder.performAll left).performAll right := by
  simp [performAll]

/-- Writing lines changes nothing but the lines. -/
theorem foldl_write (lines : List Text) (builder : Builder) :
    lines.foldl write builder = { builder with written := lines.reverse ++ builder.written } := by
  induction lines generalizing builder with
  | nil => rfl
  | cons line lines ih => simp [ih, write]

@[simp]
theorem style_perform (builder : Builder) (call : Call) :
    (builder.perform call).style = builder.style := by
  cases call <;> simp [perform, startClass, startMethod, foldl_write, write, addInstruction,
    endMethod]

theorem written_perform (builder : Builder) (call : Call) :
    (builder.perform call).written = (call.lines builder.style).reverse ++ builder.written := by
  cases call <;> simp [perform, startClass, startMethod, foldl_write, write, addInstruction,
    endMethod, Call.lines]

@[simp]
theorem style_performAll (builder : Builder) (calls : List Call) :
    (builder.performAll calls).style = builder.style := by
  induction calls generalizing builder with
  | nil => rfl
  | cons call calls ih => simp [ih]

/-- Calls leave the lines before them as they are and write their own lines below. -/
theorem written_performAll (builder : Builder) (calls : List Call) :
    (builder.performAll calls).written.reverse =
      builder.written.reverse ++ Call.allLines builder.style calls := by
  induction calls generalizing builder with
  | nil => simp
  | cons call calls ih => simp [ih, written_perform]

/-- A call writes its first line at the number of lines of the calls before it. -/
theorem line_performAll_new (style : Style) (calls : List Call) :
    ((new style).performAll calls).line = Call.lineAfter style calls := by
  have written := congrArg List.length (written_performAll (new style) calls)
  simpa [line, new, Call.lineAfter] using written

/-- Calls made item by item are a fold over the items. -/
theorem performAll_flatMap {α : Type} {callsOf : α → List Call} {write : Builder → α → Builder}
    (agree : ∀ builder item, performAll builder (callsOf item) = write builder item)
    (builder : Builder) (items : List α) :
    builder.performAll (items.flatMap callsOf) = items.foldl write builder := by
  induction items generalizing builder with
  | nil => rfl
  | cons item items ih => simp [agree, ih]

theorem performAll_ofMethod (byIndex : NatMap (NatMap Text)) (builder : Builder)
    (method : Method) :
    builder.performAll (Call.ofMethod byIndex method) = writeMethod byIndex builder method := by
  simp [Call.ofMethod, Call.ofInstructions, writeMethod, performAll, perform, List.foldl_map]

theorem performAll_ofClass (byIndex : NatMap (NatMap Text)) (builder : Builder) (cls : Class) :
    builder.performAll (Call.ofClass byIndex cls) = writeClass byIndex builder cls := by
  rw [Call.ofClass, performAll_cons, performAll_flatMap (performAll_ofMethod byIndex)]
  rfl

end Builder

/-- The listing of classes is what the calls for these classes build. -/
theorem ofClasses_eq_build (classes : List Class) (style : Style) :
    ofClasses classes style =
      ((Builder.new style).performAll (Call.ofClasses classes)).build := by
  rw [Call.ofClasses, Builder.performAll_flatMap (Builder.performAll_ofClass _)]
  rfl

end CompiledViews.Listing
