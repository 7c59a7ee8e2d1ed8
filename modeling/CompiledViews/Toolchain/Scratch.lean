import CompiledViews.FileTree.Action
import CompiledViews.FileTree.NameHash
import CompiledViews.Text.Order
import CompiledViews.Toolchain.Support

/-!
# The scratch directory

Sources are compiled in a directory of their own. Before a run it is rid of what an earlier one
made, and after the compiler has run its class files are what the other tools work on.
-/

namespace CompiledViews.Toolchain

/-- The extensions of files that a run makes. -/
def artifactExtensions : List Text := ["class", "dex", "oat"]

/-- Whether the name of a file is that of an artifact. -/
def isArtifactName (name : Text) : Bool :=
  match Path.extension? name with
  | some extension => artifactExtensions.contains extension
  | none => false

/-- Removes what an earlier run has left at a path: a directory, a link to one, or an artifact. -/
def removeArtifact (path : Text) : FileAction Unit := do
  if (← get).isDirectory path || isArtifactName (Text.afterLast '/' path) then
    FileTree.removeEntry path

/-- Removes the artifacts of an earlier run. The entries of the directory are taken one after the
other, in the order that their names are arranged in, each by its path as the files are by then. -/
def cleanScratchIn (arrange : List Text → List Text) (directory : Text) : FileAction Unit := do
  match (← get).readDirectory directory with
  | .ok names => (arrange names).forM fun name => removeArtifact (Path.join directory name)
  | .error error => throw error

/-- Removes the artifacts of an earlier run, in the order in which the directory gives its
entries. -/
def cleanScratch (directory : Text) : FileAction Unit :=
  cleanScratchIn NameHash.arrange directory

def writeFiles (directory : Text) : List (Text × Text) → FileAction Unit
  | [] => pure ()
  | (name, text) :: files => do
    FileTree.writeFile (Path.join directory name) (Text.utf8 text)
    writeFiles directory files

/-- Writes the source and the files that go with it. -/
def writeSources (directory source : Text) : FileAction Unit :=
  writeFiles directory ((sourceFile, source) :: supportFiles)

/-- Makes the directory ready for a run; its entries are cleaned in the order that their names are
arranged in. -/
def prepareScratchIn (arrange : List Text → List Text) (directory source : Text) :
    FileAction Unit := do
  FileTree.makeDirectories directory
  cleanScratchIn arrange directory
  writeSources directory source

/-- Makes the directory ready for a run. -/
def prepareScratch (directory source : Text) : FileAction Unit :=
  prepareScratchIn NameHash.arrange directory source

/-- Whether a place below the scratch directory is a class file that the compiler made from the
source, not one that only describes the module. -/
def isClassFile (place : List Text) (node : Node) : Bool :=
  match node, place.head?, place.getLast? with
  | .file _, some first, some last =>
    first != "META-INF" && Path.extension? last == some "class"
  | _, _, _ => false

/-- Whether the directory that a place below another one stands in can be opened by its path. -/
def isReadable (directory : Text) (place : List Text) : Bool :=
  Text.utf8Length (place.dropLast.foldl Path.join directory) ≤ FileTree.maxPathBytes

/-- The class files below a directory, by their paths from there, in order. What stands in a
directory that cannot be opened is passed over. -/
def classFiles (tree : FileTree) (directory : Text) : List Text :=
  match tree.node? directory with
  | some node =>
    Text.sort (node.places.filterMap fun (place, below) =>
      if isClassFile place below && isReadable directory place then some (Text.join "/" place)
      else none)
  | none => []

/-- A text without the path of a directory, and the slash after it, wherever it occurs. -/
def stripDirectory (directory text : Text) : Text :=
  Text.removeAll (if Text.endsWith directory "/" then directory else directory ++ "/") text

end CompiledViews.Toolchain
