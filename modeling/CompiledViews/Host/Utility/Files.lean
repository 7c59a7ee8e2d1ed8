import CompiledViews.Host.Utility.Basic

/-!
# Utilities for files

They list, make, copy and remove files and directories.
-/

namespace CompiledViews.Utility

/-! ## Paths -/

/-- A path without slashes at its end, unless it is the root. -/
def trimmedPath (path : Text) : Text :=
  match Text.dropRightWhile (· == '/') path with
  | [] => path.take 1
  | kept => kept

/-- Prints the last name of paths, without an ending. -/
def basename : Utility Unit :=
  withOperands "a" "s" fun options => do
    let base (path ending : Text) : Text :=
      let name := match trimmedPath path with
        | ['/'] => ['/']
        | trimmed => Text.afterLast '/' trimmed
      if name ≠ ending ∧ Text.endsWith name ending then name.take (name.length - ending.length)
      else name
    match options.operands, options.has 'a' || options.has 's' with
    | paths, true => paths.forM fun path => printLine (base path ((options.value? 's').getD []))
    | [path], false => printLine (base path [])
    | [path, ending], false => printLine (base path ending)
    | _ :: _ :: third :: _, false => misuse ("extra operand " ++ quoted third)
    | [], false => pure ()

/-- Prints paths without their last names. -/
def dirname : Utility Unit :=
  withOperands [] [] fun options =>
    options.operands.forM fun path =>
      printLine (match Text.splitLast '/' (trimmedPath path) with
        | some (above, _) => if above = [] then "/" else trimmedPath above
        | none => ".")

/-- Prints the directory that it runs in. -/
def pwd : Utility Unit := do printLine (← read).files.currentPath

/-- Prints what a link leads to, or where a path leads to. -/
def readlink : Utility Unit :=
  withOperands "fen" [] fun options => do
    let files := (← read).files
    let ending : Text := if options.has 'n' then [] else "\n"
    for path in options.operands do
      if options.has 'f' || options.has 'e' then
        match files.locateNew path, options.has 'f' || files.present path with
        | .ok place, true => printText (Path.ofNames place ++ ending)
        | _, _ => fail 1
      else
        let node : Option Node := match files.locateEntry path with
          | .ok (_, entries, name) => Node.findEntry name entries
          | .error _ => none
        match node with
        | some (.link target) => printText (target ++ ending)
        | _ => fail 1

/-- Prints where paths lead to. -/
def realpath : Utility Unit :=
  withOperands "esmq" [] fun options => do
    let files := (← read).files
    for path in options.operands do
      match files.locateNew path with
      | .ok place => printLine (Path.ofNames place)
      | .error error => complain (pathComplaint path error.description)

/-! ## Listing -/

/-- A name in a listing, with a mark of what it names if that is wanted. -/
def listedName (options : Options) (node : Option Node) (name : Text) : Text :=
  match node with
  | some (.directory _) => if options.has 'F' || options.has 'p' then name ++ "/" else name
  | some (.link _) => if options.has 'F' then name ++ "@" else name
  | _ => name

def listingOrder (options : Options) (names : List Text) : List Text :=
  let sorted := if options.has 'U' || options.has 'f' then names.reverse else Text.sort names
  if options.has 'r' then sorted.reverse else sorted

/-- The names in a directory as they are listed; hidden ones only if that is wanted. -/
def listedNames (options : Options) (entries : List (Text × Node)) : List Text :=
  let own : List Text := if options.has 'a' then [".", ".."] else []
  let names := (entries.map (·.1)).filter fun name =>
    options.has 'a' || options.has 'A' || name.head? != some '.'
  (listingOrder options (own ++ names)).map fun name =>
    listedName options (if own.contains name then some (.directory []) else
      Node.findEntry name entries) name

/-- The entries of the directory at a path. -/
def entriesAt? (files : FileTree) (path : Text) : Option (List (Text × Node)) :=
  match files.node? path with
  | some (.directory entries) => some entries
  | _ => none

/-- The directories below directories, each after the one that it stands in. -/
def directoriesBelow (files : FileTree) (options : Options) :
    (limit : Nat) → List Text → List Text
  | 0, paths => paths
  | limit + 1, paths =>
    paths.flatMap fun path =>
      let entries := (entriesAt? files path).getD []
      let names := entries.filterMap fun (name, node) =>
        if node.isDirectory && name.head? != some '.' then some name else none
      let below := (listingOrder options names).map (Path.join path)
      path :: directoriesBelow files options limit below

/-- Prints the names in directories. -/
def ls : Utility Unit :=
  withOptionsAs 2 "aA1dFpRrUfltShCxmigGnoqQsukcvNbBLHD" "wIT" fun options => do
    let files := (← read).files
    let paths := if options.operands.isEmpty then [['.']] else options.operands
    let found (path : Text) : Option Node :=
      match files.locateEntry path with
      | .ok (_, entries, name) => Node.findEntry name entries <|> files.node? path
      | .error _ => files.node? path
    let isListed (path : Text) : Bool := files.isDirectory path && !options.has 'd'
    for path in paths do
      if (found path).isNone then
        let reason := match files.locate path with
          | .error error => error.description
          | .ok _ => OsError.notFound.description
        complainAs 2 ("cannot access " ++ quoted path ++ ": " ++ reason)
    let present := paths.filter fun path => (found path).isSome
    let singles := listingOrder options (present.filter (!isListed ·))
    let listed := listingOrder options (present.filter isListed)
    let directories := if options.has 'R' then directoriesBelow files options 64 listed else listed
    singles.forM fun path => printLine (listedName options (found path) path)
    let named := 1 < paths.length || options.has 'R'
    let mut isFirst := singles.isEmpty
    for path in directories do
      if named then printText ((if isFirst then [] else "\n".toList) ++ path ++ ":\n")
      isFirst := false
      printText (Text.unlines (listedNames options ((entriesAt? files path).getD [])))

/-! ## Making -/

/-- Makes files that are not there yet. -/
def touch : Utility Unit :=
  withOptions "acmhf" "dtr" fun options =>
    if options.operands.isEmpty then misuse "missing file operand"
    else
      options.operands.forM fun path => do
        if (← get).files.present path || options.has 'c' then pure ()
        else
          let _ ← perform (FileTree.writeFile path []) fun error =>
            "cannot touch " ++ quoted path ++ ": " ++ error.description

/-- Makes directories. -/
def mkdir : Utility Unit :=
  withOperands "pv" "m" fun options =>
    options.operands.forM fun path => do
      let action : FileAction Unit :=
        if options.has 'p' then FileTree.makeDirectories path else FileTree.makeDirectory path
      let isMade ← perform action fun error =>
        "cannot create directory " ++ quoted path ++ ": " ++ error.description
      if isMade && options.has 'v' then
        printLine ((← read).name ++ ": created directory " ++ quoted path)

/-- The node that the last name of a path names, and its place; a link is not followed. -/
def entryAt (files : FileTree) (path : Text) : Except OsError (List Text × Node) := do
  let (parent, entries, name) ← files.locateEntry path
  match Node.findEntry name entries with
  | some node => pure (parent ++ [name], node)
  | none => throw .notFound

/-- Removes directories that are empty. -/
def rmdir : Utility Unit :=
  withOperands "pv" [] fun options => do
    let remove (path : Text) : Utility Bool := do
      let refuse (reason : Text) : Utility Bool := do
        complain ("failed to remove " ++ quoted path ++ ": " ++ reason)
        pure false
      match entryAt (← get).files path with
      | .error error => refuse error.description
      | .ok (place, .directory []) =>
        perform (FileTree.removePlace place) fun error => error.description
      | .ok (_, .directory _) => refuse "Directory not empty"
      | .ok _ => refuse OsError.notDirectory.description
    for path in options.operands do
      let above := if options.has 'p' then FileTree.pathsAbove path.length path else []
      let mut goesOn := true
      for directory in path :: above do
        if goesOn then goesOn ← remove directory

/-- Removes files, and directories with all that is in them if that is wanted. -/
def rm : Utility Unit :=
  withOptions "rRfdvi" [] fun options => do
    let isForced := options.has 'f'
    let isDeep := options.has 'r' || options.has 'R'
    if options.operands.isEmpty && !isForced then misuse "missing operand"
    for path in options.operands do
      let refuse (reason : Text) : Utility Unit :=
        complain ("cannot remove " ++ quoted path ++ ": " ++ reason)
      let name := Text.afterLast '/' (trimmedPath path)
      if isDeep && (name == "." || name == "..") then
        complain ("refusing to remove \x27.\x27 or \x27..\x27 directory: skipping " ++ quoted path)
      else
        match entryAt (← get).files path with
        | .error error =>
          if isForced && (error = .notFound || error = .notDirectory) then pure ()
          else refuse error.description
        | .ok (place, node) =>
          if node.isDirectory && !isDeep && !(options.has 'd' && node.entries.isEmpty) then
            refuse (if options.has 'd' then "Directory not empty" else "Is a directory")
          else
            let _ ← perform (FileTree.removePlace place) fun error => error.description
            if options.has 'v' then
              printLine ((if node.isDirectory then "removed directory ".toList
                else "removed ".toList) ++ quoted path)

/-! ## Copying -/

/-- The places of the sources of a copy and of what they become, given the operands. -/
structure Transfer where
  source : Text
  target : Text

/-- The transfers that operands ask for: into a directory, or to a path. -/
def transfers (files : FileTree) (sources : List Text) (target : Text) : List Transfer :=
  sources.map fun source =>
    ⟨source, if files.isDirectory target then
      Path.join target (Text.afterLast '/' (trimmedPath source)) else target⟩

/-- Goes on with each transfer that the operands ask for, or complains of them. -/
def withTransfers (options : Options) (body : Transfer → Utility Unit) : Utility Unit := do
  let files := (← read).files
  match options.operands.reverse with
  | [] => misuse "missing file operand"
  | [source] => misuse ("missing destination file operand after " ++ quoted source)
  | target :: sources =>
    if 1 < sources.length ∧ !files.isDirectory target then
      complain ("target " ++ quoted target ++ ": " ++
        (if files.present target then OsError.notDirectory else .notFound).description)
    else (transfers files sources.reverse target).forM body

/-- Puts a node at the end of a path. -/
def putAt (path : Text) (node : Node) : FileAction Unit := do
  let files ← get
  match files.locateNew path with
  | .ok place => FileTree.setRoot (Node.put node place files.root)
  | .error error => throw error

/-- Makes those files programs at a new place that are programs at an old one. -/
def markMoved (old : List Text) (new : Except OsError (List Text)) : Utility Unit := do
  let programs := (← read).programs
  match new with
  | .ok place =>
    let marks := programs.filterMap fun program =>
      (old.isPrefixOf? program).map fun rest => (place ++ rest, true)
    modify fun run => { run with marks := run.marks ++ marks }
  | .error _ => pure ()

/-- Copies files, and directories if that is wanted. -/
def cp : Utility Unit :=
  withOptions "rRafpdvLPxinu" [] fun options =>
    withTransfers options fun transfer => do
      let files := (← get).files
      let isDeep := options.has 'r' || options.has 'R' || options.has 'a'
      match files.locate transfer.source, files.node? transfer.source with
      | .error error, _ =>
        complain ("cannot stat " ++ quoted transfer.source ++ ": " ++ error.description)
      | .ok place, some node =>
        if (files.locate transfer.target).toOption == some place then
          complain (quoted transfer.source ++ " and " ++ quoted transfer.target ++
            " are the same file")
        else if node.isDirectory && !isDeep then
          complain ("-r not specified; omitting directory " ++ quoted transfer.source)
        else
          let isCopied ← perform (putAt transfer.target node) fun error =>
            "cannot create regular file " ++ quoted transfer.target ++ ": " ++ error.description
          if isCopied then markMoved place ((← get).files.locate transfer.target)
      | .ok _, none => pure ()

/-- Moves files and directories. -/
def mv : Utility Unit :=
  withOptions "fnvT" [] fun options =>
    withTransfers options fun transfer => do
      match entryAt (← get).files transfer.source with
      | .error error =>
        complain ("cannot stat " ++ quoted transfer.source ++ ": " ++ error.description)
      | .ok (place, node) =>
        if (entryAt (← get).files transfer.target).toOption.any (·.1 == place) then
          complain (quoted transfer.source ++ " and " ++ quoted transfer.target ++
            " are the same file")
        else if options.has 'n' && (← get).files.present transfer.target then pure ()
        else
          let move : FileAction Unit := do
            let (parent, _, name) ← match (← get).locateEntry transfer.target with
              | .ok found => pure found
              | .error error => throw error
            FileTree.removePlace place
            FileTree.setRoot (Node.put node (parent ++ [name]) (← get).root)
          let isMoved ← perform move fun error =>
            "cannot move " ++ quoted transfer.source ++ " to " ++ quoted transfer.target ++ ": " ++
              error.description
          if isMoved then markMoved place ((entryAt (← get).files transfer.target).map (·.1))

/-- Makes links. -/
def ln : Utility Unit :=
  withOptions "sfnvT" [] fun options => do
    let operands := match options.operands with
      | [source] => [source, Text.afterLast '/' (trimmedPath source)]
      | operands => operands
    withTransfers { options with operands } fun transfer => do
      let files := (← get).files
      let symbolic := options.has 's'
      let kind : Text := if symbolic then "symbolic" else "hard"
      let node : Except OsError Node :=
        if symbolic then .ok (.link transfer.source) else (entryAt files transfer.source).map (·.2)
      match node with
      | .error error =>
        complain ("failed to access " ++ quoted transfer.source ++ ": " ++ error.description)
      | .ok node =>
        let make : FileAction Unit := do
          if options.has 'f' then
            tryCatch (FileTree.removeEntry transfer.target) fun _ => pure ()
          FileTree.makeNode transfer.target node
        let detail : Text :=
          if symbolic then quoted transfer.target
          else quoted transfer.target ++ " => " ++ quoted transfer.source
        let _ ← perform make fun error =>
          "failed to create " ++ kind ++ " link " ++
            (if error = .exists then quoted transfer.target else detail) ++ ": " ++
            error.description

/-! ## Permissions -/

/-- Whether a mode makes files programs, or makes them no programs, if it says so. -/
def modeMark? (mode : Text) : Option Bool :=
  if mode.all Char.isDigit then
    some (mode.reverse.take 3 |>.any fun digit => (digit.toNat - 0x30) % 2 == 1)
  else if mode.contains 'x' then some (mode.contains '+' || mode.contains '=')
  else if mode.contains '=' then some false
  else none

/-- Makes files programs, or no programs. -/
def chmod : Utility Unit := do
  let (options, rest) := (← arguments).partition
    (["-R", "-v", "-f", "-c"] : List Text).contains
  match rest with
  | [] => misuse "missing operand"
  | [mode] => misuse ("missing operand after " ++ quoted mode)
  | mode :: paths =>
    let files := (← read).files
    for path in paths do
      match files.locate path with
      | .error error =>
        if options.contains "-f".toList then fail 1
        else complain ("cannot access " ++ quoted path ++ ": " ++ error.description)
      | .ok place =>
        match modeMark? mode with
        | some mark => modify fun run => { run with marks := run.marks ++ [(place, mark)] }
        | none => pure ()

end CompiledViews.Utility
