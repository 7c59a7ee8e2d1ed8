import CompiledViews.FileTree.Basic
import CompiledViews.Settings.Reader

/-!
# Settings files

Settings are kept in a file of JSON text. Loading fails if the file cannot be read, or if its text
does not stand for settings.
-/

namespace CompiledViews

/-- Why settings cannot be loaded from the file at a path. -/
inductive LoadError where
  | unreadable (path : Text) (error : OsError)
  | invalid (path : Text) (error : Json.ReadError)
deriving DecidableEq, Repr

/-- The problem of a JSON text in words. -/
def Json.ReadError.message : Json.ReadError → Text
  | malformed => "malformed JSON"
  | endOfText => "EOF while parsing a value"
  | mismatch message => message

def LoadError.message : LoadError → Text
  | unreadable path error => "failed to read config " ++ path ++ ": " ++ error.message
  | invalid path error => "invalid config " ++ path ++ ": " ++ error.message

def LoadError.cause : LoadError → Text
  | unreadable _ error => error.message
  | invalid _ error => error.message

def Settings.load (tree : FileTree) (path : Text) : Except LoadError Settings := do
  let text ← (tree.readText path).mapError (LoadError.unreadable path)
  (Settings.read text).mapError (LoadError.invalid path)

end CompiledViews
