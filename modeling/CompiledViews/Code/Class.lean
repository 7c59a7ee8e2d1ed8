import CompiledViews.Code.Instruction
import CompiledViews.Code.Isa

/-!
# Classes and methods

What a dump says about the program: classes with their methods, and the code of each method.
-/

namespace CompiledViews

/-- A method with its code. `index` is its number in the DEX file and `codeSize` the size of its
code in bytes, where the dump gives them. `references` names the methods that the DEX code of the
method invokes, by the address of the invocation. -/
structure Method where
  header : Text
  index : Option Nat
  codeSize : Option Nat
  isa : Isa
  instructions : List Instruction
  references : NatMap Text
deriving DecidableEq, Repr

/-- A class with its methods. -/
structure Class where
  header : Text
  methods : List Method
deriving DecidableEq, Repr

end CompiledViews
