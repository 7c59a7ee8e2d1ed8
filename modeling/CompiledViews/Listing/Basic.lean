import CompiledViews.Listing.Builder

/-!
# Listings of classes

The listing of what a dump says: class by class, method by method, instruction by instruction. A
call shows an arrow with the name of its callee if the dump lets it be known. There is no listing in
a style that leaves no room for a method.
-/

namespace CompiledViews.Listing

/-- The references of the methods by their index; of methods with the same index the last one
counts. -/
def referencesByIndex (classes : List Class) : NatMap (NatMap Text) :=
  .ofList ((classes.flatMap (·.methods)).filterMap fun method =>
    method.index.map fun index => (index, method.references))

/-- The name of the method that an instruction of a method calls: what its call address refers to
in the DEX code of the method itself, or of the method that the call was inlined from. -/
def callee? (byIndex : NatMap (NatMap Text)) (method : Method) (instruction : Instruction) :
    Option Text := do
  let address ← instruction.callAddress
  let references ← match instruction.callMethod with
    | some index => byIndex.get? index
    | none => some method.references
  references.get? address

def writeMethod (byIndex : NatMap (NatMap Text)) (builder : Builder) (method : Method) : Builder :=
  (method.instructions.foldl
    (fun builder instruction =>
      builder.addInstruction instruction (callee? byIndex method instruction))
    (builder.startMethod method)).endMethod

def writeClass (byIndex : NatMap (NatMap Text)) (builder : Builder) (cls : Class) : Builder :=
  cls.methods.foldl (writeMethod byIndex) (builder.startClass cls.header)

def ofClasses (classes : List Class) (style : Style) : Listing :=
  (classes.foldl (writeClass (referencesByIndex classes)) (Builder.new style)).build

/-- Whether the lines of a method can be written in a style: they are indented twice, and its
instructions have a column for their line numbers if those are shown. -/
def FitsMethod (style : Style) (method : Method) : Prop :=
  style.indent * 2 ≤ Style.mostBytes ∧
    (style.showLineNumbers = true → method.instructions ≠ [] →
      style.lineNumberWidth + 2 ≤ Style.widestColumn)

instance (style : Style) (method : Method) : Decidable (FitsMethod style method) :=
  inferInstanceAs (Decidable (_ ∧ (_ → _ → _)))

/-- Whether the listing of classes can be written in a style. -/
def Fits (classes : List Class) (style : Style) : Prop :=
  ∀ cls ∈ classes, ∀ method ∈ cls.methods, FitsMethod style method

instance (classes : List Class) (style : Style) : Decidable (Fits classes style) :=
  inferInstanceAs (Decidable (∀ cls ∈ classes, ∀ method ∈ cls.methods, FitsMethod style method))

/-- The listing of classes in a style, if it can be written. -/
def ofClasses? (classes : List Class) (style : Style) : Option Listing :=
  if Fits classes style then some (ofClasses classes style) else none

/-- The line of the target of the jump on a line. -/
def jumpTarget? (listing : Listing) (line : Nat) : Option Nat := listing.jumps.get? line

/-- The line of the last instruction that comes from a line of the source. -/
def codeLine? (listing : Listing) (sourceLine : Nat) : Option Nat :=
  listing.sourceToCode.get? sourceLine

/-- The line of the source that a line of code comes from. -/
def sourceLine? (listing : Listing) (codeLine : Nat) : Option Nat :=
  listing.codeToSource.get? codeLine

end CompiledViews.Listing
