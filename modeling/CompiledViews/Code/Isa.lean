import CompiledViews.Text.Basic

/-!
# Instruction sets

The instruction sets that a dump can be in, and which mnemonics branch or return in each.
-/

namespace CompiledViews

/-- An instruction set: of the Java virtual machine, of Android's, or of a processor. -/
inductive Isa where
  | byteCode
  | dex
  | x86_64
  | aarch64
deriving DecidableEq, Repr

namespace Isa

/-- Whether a processor executes the instructions. -/
def isNative : Isa → Bool
  | byteCode | dex => false
  | x86_64 | aarch64 => true

def isBranch : Isa → Text → Bool
  | byteCode, op => Text.startsWith op "if" || Text.startsWith op "goto"
  | dex, op => Text.startsWith op "if-" || Text.startsWith op "goto"
  | x86_64, op => Text.startsWith op "j"
  | aarch64, op =>
    Text.startsWith op "b." || (["b", "br", "cbz", "cbnz", "tbz", "tbnz"] : List Text).contains op

/-- Whether a mnemonic returns from the method. -/
def isReturn : Isa → Text → Bool
  | byteCode, op => Text.endsWith op "return"
  | dex, op => Text.startsWith op "return"
  | x86_64, op | aarch64, op => op == "ret"

end Isa

end CompiledViews
