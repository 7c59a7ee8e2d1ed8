import CompiledViews.Text.Basic

/-!
# Paths

Paths as they are written: names with slashes between them, absolute if they begin with one.
-/

namespace CompiledViews.Path

def isAbsolute (path : Text) : Bool := Text.startsWith path "/"

/-- A path below another one. An absolute one stays what it is, and no slash is added after an
empty path or one that ends in a slash. -/
def join (base path : Text) : Text :=
  if isAbsolute path then path
  else if base = [] ∨ Text.endsWith base "/" then base ++ path
  else base ++ "/" ++ path

/-- The names of a path, without those that are empty. -/
def names (path : Text) : List Text := (Text.splitAll '/' path).filter (· != [])

/-- The names to walk through to what a path leads to. An empty one at the end stands for a slash
there, which asks for a directory. -/
def steps (path : Text) : List Text :=
  if Text.endsWith path "/" then names path ++ [[]] else names path

/-- The last name of a path, unless it leads upwards or the path has none. A period is no name. -/
def fileName? (path : Text) : Option Text :=
  match ((names path).filter (· != ['.'])).getLast? with
  | some name => if name = ".." then none else some name
  | none => none

/-- A path without the slashes and periods at its end, which name nothing, unless it is the root. -/
def withoutIdleEnd (path : Text) : Text :=
  let isIdle (name : Text) : Bool := name == [] || name == "."
  match ((Text.splitAll '/' path).reverse.dropWhile isIdle).reverse with
  | [] => path.take 1
  | kept => Text.join "/" kept

/-- The path of the directory that an absolute path names something in, as it is written there. -/
def parent? (path : Text) : Option Text :=
  (Text.splitLast '/' (withoutIdleEnd path)).bind fun (directory, name) =>
    if name = [] then none else some (withoutIdleEnd (directory ++ "/"))

/-- The absolute path with the given names. -/
def ofNames (names : List Text) : Text := "/" ++ Text.join "/" names

/-- The path of the directory that a path names something in, as a text: without its last name,
and without the periods and slashes around that. -/
def above? (path : Text) : Option Text :=
  match ((names path).filter (· != ['.'])).dropLast with
  | [] => none
  | kept => some (if isAbsolute path then ofNames kept else Text.join "/" kept)

/-- What follows the last period of a name, unless nothing stands before that. -/
def extension? (name : Text) : Option Text :=
  match Text.splitLast '.' name with
  | some (stem, extension) => if stem = [] ∨ name = ".." then none else some extension
  | none => none

end CompiledViews.Path
