import CompiledViews.Host.Shell.Expansion

/-!
# Redirections

The descriptors of a command are opened for files, made the same as others, or closed. They are as
before after the command.
-/

namespace CompiledViews.Shell

/-- Why a file cannot be opened, in words; something that is missing has words of its own. -/
def openReason (missing : Text) (error : OsError) : Text :=
  if error = .notFound ∨ error = .notDirectory then missing else error.description

/-- The complaint that a file cannot be opened, which may have to be created for that. -/
def openComplaint (creating : Bool) (path : Text) (error : OsError) : Text :=
  if creating then "cannot create " ++ path ++ ": " ++ openReason "Directory nonexistent" error
  else "cannot open " ++ path ++ ": " ++ openReason "No such file" error

/-- The descriptor that a path in the directory of devices stands for. -/
def devicePath? (path : Text) : Option Nat :=
  match Text.toString path with
  | "/dev/stdin" => some 0
  | "/dev/stdout" => some 1
  | "/dev/stderr" => some 2
  | _ =>
    match Text.after? "/dev/fd/" path with
    | some [digit] => if digit.isDigit then some (digit.toNat - 0x30) else none
    | _ => none

/-- The stream of the system that a path leads to. -/
def systemStream? (path : Text) : Option Stream :=
  match Text.toString path with
  | "/dev/null" => some .null
  | "/dev/zero" => some .zero
  | "/dev/full" => some .full
  | _ => none

/-- What opening a file does to the files. -/
def openAction (mode : OpenMode) (path : Text) : FileAction Unit := do
  let files ← get
  let isThere := files.present path
  match mode with
  | .read =>
    match files.locate path with
    | .ok _ => pure ()
    | .error error => throw error
  | .write | .replace => FileTree.writeFile path []
  | .append | .readWrite =>
    if files.isDirectory path then throw .isDirectory
    else if isThere then pure ()
    else FileTree.writeFile path []

/-- Opens a file for a descriptor, and tells whether that can be done. -/
def openFile (descriptor : Nat) (mode : OpenMode) (path : Text) : Action Bool := do
  let state ← get
  let refuse (reason : Text) : Action Bool := do
    complain reason
    pure false
  match systemStream? path, devicePath? path with
  | some stream, _ =>
    set (state.setStream descriptor (some stream))
    pure true
  | none, some source =>
    match state.stream? source with
    | some stream =>
      set (state.setStream descriptor (some stream))
      pure true
    | none => refuse (openComplaint (mode != .read) path .notFound)
  | none, none =>
    let isKept := mode = .write ∧ state.has 'C' ∧ (state.files.readBytes path).toOption.isSome
    if isKept then refuse (openComplaint true path .exists)
    else
      match openAction mode path state.files with
      | .error error _ => refuse (openComplaint (mode != .read) path error)
      | .ok _ files =>
        let absolute := Path.join state.files.currentPath path
        let (stream, opened) := { state with files }.openNew (.file absolute 0 mode)
        set (opened.setStream descriptor (some stream))
        pure true

/-- Makes a descriptor the same as another one, or closes it. -/
def duplicate (descriptor : Nat) (target : Text) : Action Bool := do
  let state ← get
  match target with
  | ['-'] =>
    set (state.setStream descriptor none)
    pure true
  | [digit] =>
    if !digit.isDigit then fail "Syntax error: Bad fd number"
    else
      match state.stream? (digit.toNat - 0x30) with
      | some stream =>
        set (state.setStream descriptor (some stream))
        pure true
      | none =>
        complain (target ++ ": Bad file descriptor")
        pure false
  | _ => fail "Syntax error: Bad fd number"

/-- Does what a redirection says, and tells whether that can be done. A text that cannot be expanded
is one that cannot be read. -/
def redirectOne (run : Script → Action Bytes) : Redirection → Action Bool
  | .file descriptor mode target => do
    openFile descriptor mode (← expandWhole run target).plain
  | .duplicate descriptor target => do
    duplicate descriptor (← expandWhole run target).plain
  | .document descriptor text => do
    let read : Action Bool := do
      let glyphs ← expandParts run false false text
      let state ← get
      let bytes := Text.bytes (markedText glyphs).plain
      let (stream, opened) := state.openNew (.supply [(state.time, bytes)] state.time)
      set (opened.setStream descriptor (some stream))
      pure true
    try read
    catch stop => if stop = .failed then pure false else throw stop

/-- A redirection whose target, a file or a descriptor, stands for itself. -/
def expandTarget (run : Script → Action Bytes) (redirection : Redirection) :
    Action Redirection := do
  match redirection with
  | .file descriptor mode target =>
    return .file descriptor mode [.text (← expandWhole run target).plain true]
  | .duplicate descriptor target =>
    return .duplicate descriptor [.text (← expandWhole run target).plain true]
  | .document descriptor text => pure (.document descriptor text)

/-- Does what redirections say up to the first one that cannot be done, and tells whether there is
none. -/
def redirectEach (run : Script → Action Bytes) : List Redirection → Action Bool
  | [] => pure true
  | redirection :: others => do
    if ← redirectOne run redirection then redirectEach run others else pure false

/-- Does what redirections say as far as that can be done, after all their targets are known, and
tells whether all of it can be done. -/
def redirectAll (run : Script → Action Bytes) (redirections : List Redirection) : Action Bool := do
  redirectEach run (← redirections.mapM (expandTarget run))

/-- Goes on with the descriptors that redirections make, which are as before afterwards; if they
cannot be made, with something else. -/
def withRedirections {α : Type} (run : Script → Action Bytes) (redirections : List Redirection)
    (body otherwise : Action α) : Action α := do
  let before := (← get).descriptors
  try
    if ← redirectAll run redirections then body else otherwise
  finally
    modify ({ · with descriptors := before })

end CompiledViews.Shell
