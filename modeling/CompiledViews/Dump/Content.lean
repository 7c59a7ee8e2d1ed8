import CompiledViews.Dump.Dexdump
import CompiledViews.Dump.Javap
import CompiledViews.Dump.Oatdump

/-!
# Contents of dumps

The three formats of dumps under one roof, and what a view gets from the dump it shows.
-/

namespace CompiledViews

/-- What a view has to show: classes, the reason why there are none, or nothing. -/
inductive Content where
  | classes (classes : List Class)
  | unreadable (message : Text)
  | empty
deriving DecidableEq, Repr

namespace Dump

/-- A format of dumps, named for the tool that prints it. -/
inductive Format where
  | javap
  | dexdump
  | oatdump
deriving DecidableEq, Repr

namespace Format

/-- The name of the tool. -/
def name : Format → Text
  | javap => "javap"
  | dexdump => "dexdump"
  | oatdump => "oatdump"

def read : Format → Text → Except Error (List Class)
  | javap => Javap.read
  | dexdump => Dexdump.read
  | oatdump => Oatdump.read

/-- Why a dump cannot be read, for the reader of a view. -/
def failure (format : Format) (error : Error) : Text :=
  "Failed to parse " ++ format.name ++ " dump: " ++ error.message

def content (format : Format) (text : Text) : Content :=
  match format.read text with
  | .ok classes => .classes classes
  | .error error => .unreadable (format.failure error)

end Format

end Dump

end CompiledViews
