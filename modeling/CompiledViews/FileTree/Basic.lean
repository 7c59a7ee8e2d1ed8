import CompiledViews.FileTree.Path
import CompiledViews.Text.Utf8

/-!
# File trees

Files, directories and symbolic links as a value, with the directory that relative paths start
from. Following a path means to walk through its names from directory to directory; a link on the
way replaces its name by the path it leads to.
-/

namespace CompiledViews

/-- Why the system refuses an operation on files. -/
inductive OsError where
  | notFound
  | permissionDenied
  | exists
  | notDirectory
  | isDirectory
  | argumentsTooLong
  | nameTooLong
  | tooManyLinks
  | nulInPath
  | notText
deriving DecidableEq, Repr

namespace OsError

/-- What an error is called. -/
def description : OsError → Text
  | notFound => "No such file or directory"
  | permissionDenied => "Permission denied"
  | «exists» => "File exists"
  | notDirectory => "Not a directory"
  | isDirectory => "Is a directory"
  | argumentsTooLong => "Argument list too long"
  | nameTooLong => "File name too long"
  | tooManyLinks => "Too many levels of symbolic links"
  | nulInPath => "file name contained an unexpected NUL byte"
  | notText => "stream did not contain valid UTF-8"

/-- The number that the system gives to an error, if it comes from there. -/
def code? : OsError → Option Nat
  | notFound => some 2
  | permissionDenied => some 13
  | «exists» => some 17
  | notDirectory => some 20
  | isDirectory => some 21
  | argumentsTooLong => some 7
  | nameTooLong => some 36
  | tooManyLinks => some 40
  | nulInPath | notText => none

def message (error : OsError) : Text :=
  match error.code? with
  | some code => error.description ++ " (os error " ++ Text.ofNat code ++ ")"
  | none => error.description

end OsError

/-- What stands under a name: a file, a directory with its entries, or a link to a path. -/
inductive Node where
  | file (content : Bytes)
  | directory (entries : List (Text × Node))
  | link (target : Text)
deriving Repr

namespace Node

/-- The entry with a name. -/
def findEntry (name : Text) : List (Text × Node) → Option Node
  | [] => none
  | entry :: rest => if entry.1 = name then some entry.2 else findEntry name rest

/-- The entries with another node under a name. -/
def setEntry (name : Text) (node : Node) : List (Text × Node) → List (Text × Node)
  | [] => [(name, node)]
  | entry :: rest =>
    if entry.1 = name then (name, node) :: rest else entry :: setEntry name node rest

def entries : Node → List (Text × Node)
  | directory entries => entries
  | _ => []

def isDirectory : Node → Bool
  | directory _ => true
  | _ => false

/-- What stands at a place, which is given by the names of entries one in the other. -/
def at? : Node → List Text → Option Node
  | node, [] => some node
  | directory entries, name :: rest =>
    match findEntry name entries with
    | some child => child.at? rest
    | none => none
  | _, _ :: _ => none

/-- The node with another node at a place below existing directories. -/
def put (new : Node) : List Text → Node → Node
  | [], _ => new
  | name :: rest, directory entries =>
    directory (setEntry name (put new rest ((findEntry name entries).getD (directory []))) entries)
  | _ :: _, other => other

/-- The node without what stands at a place. -/
def remove : List Text → Node → Node
  | [name], directory entries => directory (entries.filter fun entry => entry.1 != name)
  | name :: rest, directory entries =>
    match findEntry name entries with
    | some child => directory (setEntry name (remove rest child) entries)
    | none => directory entries
  | _, other => other

mutual

/-- All places below a node, each with what stands there. -/
def places : Node → List (List Text × Node)
  | directory entries => placesOf entries
  | _ => []

/-- All places below a list of entries, with what stands there. -/
def placesOf : List (Text × Node) → List (List Text × Node)
  | [] => []
  | (name, node) :: rest =>
    ([name], node) :: ((places node).map fun (place, below) => (name :: place, below)) ++
      placesOf rest

end

end Node

/-- All files there are, and the place of the directory that relative paths start from. -/
structure FileTree where
  root : Node
  current : List Text
deriving Repr

namespace FileTree

/-- How far a walk comes: to its end, or to a link that has to be followed from a directory, with
the names that are left after it. -/
inductive Walk where
  | arrived (place : List Text)
  | detour (place : List Text) (target : Text) (rest : List Text)

/-- How many bytes a name may have. -/
def maxNameBytes : Nat := 255

/-- How many bytes a path may have. -/
def maxPathBytes : Nat := 4095

/-- The walk from a place through names. Where a file is to be created, the last name may stand for
nothing yet, and no slash may follow it. -/
def walk (root : Node) (creating : Bool) : List Text → List Text → Except OsError Walk
  | place, [] => .ok (.arrived place)
  | place, name :: rest =>
    match root.at? place with
    | some (.directory entries) =>
      if name = [] ∨ name = "." then walk root creating place rest
      else if name = ".." then walk root creating place.dropLast rest
      else if creating ∧ rest = [[]] then .error .isDirectory
      else if maxNameBytes < Text.utf8Length name then .error .nameTooLong
      else
        match Node.findEntry name entries with
        | some (.link target) => .ok (.detour place target rest)
        | some _ => walk root creating (place ++ [name]) rest
        | none =>
          if creating ∧ rest = [] then .ok (.arrived (place ++ [name])) else .error .notFound
    | some _ => .error .notDirectory
    | none => .error .notFound

/-- The place that names lead to from a place, through at most `links` links. -/
def follow (root : Node) (creating : Bool) :
    (links : Nat) → List Text → List Text → Except OsError (List Text)
  | links, place, names =>
    match walk root creating place names with
    | .error error => .error error
    | .ok (.arrived final) => .ok final
    | .ok (.detour directory target rest) =>
      match links with
      | 0 => .error .tooManyLinks
      | links + 1 =>
        follow root creating links (if Path.isAbsolute target then [] else directory)
          (Path.steps target ++ rest)

/-- How many links a path may lead through. -/
def maxLinks : Nat := 40

/-- The place where a path starts. -/
def start (tree : FileTree) (path : Text) : List Text :=
  if Path.isAbsolute path then [] else tree.current

/-- Whether a text can be a path at all. -/
def checkPath (path : Text) : Except OsError Unit :=
  if path.contains '\x00' then .error .nulInPath
  else if path = [] then .error .notFound
  else if maxPathBytes < Text.utf8Length path then .error .nameTooLong
  else .ok ()

/-- The place that a path leads to. -/
def locate (tree : FileTree) (path : Text) : Except OsError (List Text) := do
  checkPath path
  follow tree.root false maxLinks (tree.start path) (Path.steps path)

/-- The place of the file at the end of a path, which need not be there yet. -/
def locateNew (tree : FileTree) (path : Text) : Except OsError (List Text) := do
  checkPath path
  follow tree.root true maxLinks (tree.start path) (Path.steps path)

/-- The place of the directory that the last name of a path stands in, its entries, and the name. -/
def locateEntry (tree : FileTree) (path : Text) :
    Except OsError (List Text × List (Text × Node) × Text) := do
  checkPath path
  match (Path.names path).getLast? with
  | none => throw .exists
  | some name =>
    let place ← follow tree.root false maxLinks (tree.start path) (Path.names path).dropLast
    match tree.root.at? place with
    | some (.directory entries) =>
      if name = "." ∨ name = ".." then throw .exists
      else if maxNameBytes < Text.utf8Length name then throw .nameTooLong
      else pure (place, entries, name)
    | _ => throw .notDirectory

def node? (tree : FileTree) (path : Text) : Option Node :=
  match tree.locate path with
  | .ok place => tree.root.at? place
  | .error _ => none

/-- Whether a path leads to something. -/
def present (tree : FileTree) (path : Text) : Bool := (tree.node? path).isSome

def isDirectory (tree : FileTree) (path : Text) : Bool :=
  match tree.node? path with
  | some node => node.isDirectory
  | none => false

/-- The names in the directory that a path leads to. -/
def readDirectory (tree : FileTree) (path : Text) : Except OsError (List Text) := do
  match tree.root.at? (← tree.locate path) with
  | some (.directory entries) => pure (entries.map (·.1)).reverse
  | _ => throw .notDirectory

/-- The content of the file that a path leads to. -/
def readBytes (tree : FileTree) (path : Text) : Except OsError Bytes := do
  match tree.root.at? (← tree.locate path) with
  | some (.file content) => pure content
  | _ => throw .isDirectory

/-- The text of the file that a path leads to. -/
def readText (tree : FileTree) (path : Text) : Except OsError Text := do
  match Utf8.text? (← tree.readBytes path) with
  | some text => pure text
  | none => throw .notText

/-- The path of the directory that relative paths start from. -/
def currentPath (tree : FileTree) : Text := Path.ofNames tree.current

/-- The absolute path without links of what a path leads to; if that is nothing, just the absolute
path. -/
def canonical (tree : FileTree) (path : Text) : Text :=
  let absolute := Path.join tree.currentPath path
  match tree.locate absolute with
  | .ok place => Path.ofNames place
  | .error _ => absolute

end FileTree

end CompiledViews
