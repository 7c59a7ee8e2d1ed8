import CompiledViews.FileTree.Basic

/-!
# Changing files

Actions on a file tree. An action that fails leaves behind what it did before it failed.
-/

namespace CompiledViews

/-- An action on the files, which may fail. -/
abbrev FileAction := EStateM OsError FileTree

namespace FileTree

def setRoot (root : Node) : FileAction Unit := modify fun tree => { tree with root }

/-- Writes a file, in place of one that is there already. A link is followed. -/
def writeFile (path : Text) (content : Bytes) : FileAction Unit := do
  let tree ← get
  match tree.locateNew path with
  | .error error => throw error
  | .ok place =>
    match tree.root.at? place with
    | some (.directory _) => throw .isDirectory
    | _ => setRoot (Node.put (.file content) place tree.root)

/-- Makes a node at the end of a path that leads to nothing yet and whose parent is there. -/
def makeNode (path : Text) (node : Node) : FileAction Unit := do
  let tree ← get
  match tree.locateEntry path with
  | .error error => throw error
  | .ok (parent, entries, name) =>
    if (Node.findEntry name entries).isSome then throw .exists
    else setRoot (Node.put node (parent ++ [name]) tree.root)

def makeDirectory (path : Text) : FileAction Unit := makeNode path (.directory [])

def makeLink (path target : Text) : FileAction Unit := makeNode path (.link target)

/-- An action whose failure does not matter where a path leads to a directory. -/
def unlessDirectory (path : Text) (action : FileAction Unit) : FileAction Unit :=
  tryCatch action fun error => do
    if (← get).isDirectory path then pure () else throw error

/-- Makes the directory at the end of the first path; if that takes another one first, those at the
ends of the paths after it, of which each one is above the one before. -/
def makeChain : List Text → FileAction Unit
  | [] => pure ()
  | path :: above =>
    tryCatch (makeDirectory path) fun error => do
      if error = .notFound then
        makeChain above
        unlessDirectory path (makeDirectory path)
      else if (← get).isDirectory path then pure ()
      else throw error

/-- The paths above a path, the longest one first; at most `limit`. -/
def pathsAbove : (limit : Nat) → Text → List Text
  | 0, _ => []
  | limit + 1, path =>
    match Path.above? path with
    | some above => above :: pathsAbove limit above
    | none => []

/-- Makes the directory at the end of a path and those above it that are missing. -/
def makeDirectories (path : Text) : FileAction Unit :=
  makeChain (path :: pathsAbove path.length path)

/-- Removes the entry at the end of a path, with all that is below it. A link goes, what it leads to
stays. -/
def removeEntry (path : Text) : FileAction Unit := do
  let tree ← get
  match tree.locateEntry path with
  | .error error => throw error
  | .ok (parent, entries, name) =>
    if (Node.findEntry name entries).isSome then setRoot (tree.root.remove (parent ++ [name]))
    else throw .notFound

/-- Removes what stands at a place, with all that is below it. A link goes, what it leads to
stays. -/
def removePlace (place : List Text) : FileAction Unit := do
  let tree ← get
  setRoot (tree.root.remove place)

end FileTree

end CompiledViews
