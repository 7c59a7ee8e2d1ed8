import CompiledViews.Text.Basic

/-!
# Errors of dump readers

Why a dump cannot be read, and where. While it looks at a line a reader knows what is wrong but
not the number of the line; it raises a `Fault`, which says whether the line at hand or the one
before it is to blame, and locating the fault gives the error.
-/

namespace CompiledViews.Dump

/-- What a reader needs next when it meets something else or the end. -/
inductive Expectation where
  | closingBrace
  | switchEnd
  | classDescriptor
  | classDescriptorLine
  | sourceFileIndex
  | instructionCount
  | methodSignature
  | instruction
  | positions
  | methodDescriptor
  | instructionSetMark
  | instructionSetName
deriving DecidableEq, Repr

/-- An expectation in words. -/
def Expectation.text : Expectation → Text
  | closingBrace => "'\x7d'"
  | switchEnd => "end of switch table"
  | classDescriptor => "class descriptor"
  | classDescriptorLine => "Class descriptor"
  | sourceFileIndex => "source_file_idx"
  | instructionCount => "instruction count"
  | methodSignature => "method signature"
  | instruction => "instruction"
  | positions => "positions"
  | methodDescriptor => "method descriptor"
  | instructionSetMark => "INSTRUCTION SET:"
  | instructionSetName => "instruction set name"

/-- Why a dump cannot be read. Lines count from one. -/
inductive Error where
  | unexpectedLine (lineNumber : Nat) (expected : Expectation) (found : Text)
  | unexpectedEnd (expected : Expectation)
  | invalidNumber (lineNumber : Nat) (value : Text)
  | unknownInstructionSet (name : Text)
deriving DecidableEq, Repr

/-- An error in words. -/
def Error.message : Error → Text
  | unexpectedLine lineNumber expected found =>
    "line " ++ Text.ofNat lineNumber ++ ": expected " ++ expected.text ++ " but got '" ++ found ++
      "'"
  | unexpectedEnd expected => "unexpected end of dump, expected " ++ expected.text
  | invalidNumber lineNumber value =>
    "line " ++ Text.ofNat lineNumber ++ ": invalid number '" ++ value ++ "'"
  | unknownInstructionSet name => "unknown instruction set: " ++ name

/-- The line that a fault is found on, seen from the line that the reader looks at. -/
inductive Place where
  | thisLine
  | lineBefore
deriving DecidableEq, Repr

/-- An error whose line number is still to be filled in. -/
inductive Fault where
  | unexpected (place : Place) (expected : Expectation) (found : Text)
  | unexpectedEnd (expected : Expectation)
  | invalidNumber (place : Place) (value : Text)
  | unknownInstructionSet (name : Text)
deriving DecidableEq, Repr

/-- The number of the line at a place, where `before` lines come before the line at hand. -/
def Place.lineNumber (before : Nat) : Place → Nat
  | thisLine => before + 1
  | lineBefore => before

/-- The error that a fault is, where `before` lines come before the line at hand. -/
def Fault.locate (before : Nat) : Fault → Error
  | unexpected place expected found => .unexpectedLine (place.lineNumber before) expected found
  | unexpectedEnd expected => .unexpectedEnd expected
  | invalidNumber place value => .invalidNumber (place.lineNumber before) value
  | unknownInstructionSet name => .unknownInstructionSet name

/-- A number, or the fault that its text spells none. -/
def number (read : Text → Option Nat) (place : Place) (value : Text) : Except Fault Nat :=
  match read value with
  | some result => .ok result
  | none => .error (.invalidNumber place value)

end CompiledViews.Dump
