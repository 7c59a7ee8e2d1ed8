import CompiledViews.FileTree.Path

/-!
# Changes of files

What a watcher reports, and which of that starts another run. Editors often put a new file in the
place of the watched one, so its directory is watched and files are told by their names.
-/

namespace CompiledViews

/-- What has happened to files. -/
inductive ChangeKind where
  | any
  | access
  | create
  | modify
  | remove
  | other
deriving DecidableEq, Repr

/-- A change that a watcher reports, with the paths of the files. -/
structure Change where
  kind : ChangeKind
  paths : List Text
deriving DecidableEq, Repr

/-- Whether a change may have given new content to the watched file. -/
def Change.concerns (change : Change) (watched : Text) : Bool :=
  (change.kind == .modify || change.kind == .create) &&
    change.paths.any fun path => Path.fileName? path == Path.fileName? watched

/-- The changes that wait for another run: whether anyone still listens, and how many there are. -/
structure ChangeQueue where
  listening : Bool
  waiting : Nat
deriving DecidableEq, Repr

/-- The queue after a report of the watcher, which may be that it failed, and whether the report was
queued. -/
def ChangeQueue.forward (queue : ChangeQueue) (watched : Text) (report : Option Change) :
    Bool × ChangeQueue :=
  match report with
  | none => (false, queue)
  | some change =>
    if change.concerns watched && queue.listening then
      (true, { queue with waiting := queue.waiting + 1 })
    else (false, queue)

end CompiledViews
