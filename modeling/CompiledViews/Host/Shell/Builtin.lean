import CompiledViews.Host.Format.Basic
import CompiledViews.Host.Shell.Redirection
import CompiledViews.Host.Utility.Condition
import CompiledViews.Text.Lines

/-!
# Commands of the shell

The commands that a shell does itself and that evaluate no script. Each one takes arguments and has
a status.
-/

namespace CompiledViews.Shell

/-- A command of the shell: what it does with its arguments, and its status. -/
abbrev Builtin := List Text → Action Nat

namespace Builtin

/-! ## Arguments -/

/-- The greatest number that commands take. -/
def greatest : Nat := 2147483647

/-- The natural number that a word is, with blanks around it and a sign before it. -/
def number? (word : Text) : Option Nat :=
  let start := word.dropWhile Arithmetic.isSpace
  let (isNegative, unsigned) : Bool × Text :=
    match start with
    | '-' :: rest => (true, rest)
    | '+' :: rest => (false, rest)
    | _ => (false, start)
  let digits := unsigned.takeWhile Char.isDigit
  let value := Host.Escape.spelled 10 digits
  if digits = [] ∨ !(unsigned.drop digits.length).all Arithmetic.isSpace then none
  else if (isNegative ∧ value ≠ 0) ∨ greatest < value then none
  else some value

def number (word : Text) : Action Nat :=
  match number? word with
  | some value => pure value
  | none => fail ("Illegal number: " ++ word)

/-- The options at the beginning of arguments, each with its value, and the other arguments. -/
def options (plain valued : Text) : (limit : Nat) → List Text →
    Action (List (Char × Text) × List Text)
  | 0, arguments => pure ([], arguments)
  | limit + 1, arguments =>
    match arguments with
    | ['-', '-'] :: others => pure ([], others)
    | ('-' :: letter :: rest) :: others =>
      if plain.contains letter then do
        let (more, left) ← options plain valued limit
          (if rest = [] then others else ('-' :: rest) :: others)
        return ((letter, []) :: more, left)
      else if valued.contains letter then
        match rest, others with
        | _ :: _, _ => do
          let (more, left) ← options plain valued limit others
          return ((letter, rest) :: more, left)
        | [], value :: after => do
          let (more, left) ← options plain valued limit after
          return ((letter, value) :: more, left)
        | [], [] => fail ("No arg for -" ++ [letter] ++ " option")
      else fail ("Illegal option -" ++ [letter])
    | _ => pure ([], arguments)

/-- The letters of options that take no value, and the other arguments. -/
def letters (plain : Text) (arguments : List Text) : Action (Text × List Text) := do
  let (given, others) ← options plain [] (arguments.flatten.length + 1) arguments
  return (given.map (·.1), others)

/-- A text in quotes, as a script could hold it. -/
def quoted (text : Text) : Text := pieces (text.length + 1) text
where
  /-- The pieces of a text with and without quotes of its own, each one in the other quotes. -/
  pieces : (limit : Nat) → Text → Text
    | 0, _ => []
    | limit + 1, text =>
      let plain := text.takeWhile (· != '\x27')
      let rest := text.drop plain.length
      let quotes := rest.takeWhile (· == '\x27')
      let after := rest.drop quotes.length
      let between (quote inside : Text) : Text := quote ++ inside ++ quote
      between "\x27" plain ++ (if quotes = [] then [] else between "\"" quotes) ++
        (if after = [] then [] else pieces limit after)

/-- Assigns a value to something whose name may be that of no variable. -/
def assignChecked (name value : Text) : Action Unit :=
  if isName name then assign name value else fail (name ++ ": bad variable name")

/-! ## Printing -/

/-- Prints the arguments with their escapes, without an end of line after `-n`. -/
def echo : Builtin := fun arguments => do
  let (words, ending) : List Text × Bytes :=
    match arguments with
    | ['-', 'n'] :: others => (others, [])
    | _ => (arguments, [Bytes.lineFeed])
  let (bytes, goesOn) := Host.Escape.expand Host.FormatStyle.builtIn.argumentEscapes
    (Text.join " " words)
  print "echo" (if goesOn then bytes ++ ending else bytes)

def tellProblem : Host.FormatProblem → Action Nat
  | .noNumber argument => do
    complain (argument ++ ": expected numeric value")
    pure 1
  | .unfinishedNumber argument => do
    complain (argument ++ ": not completely converted")
    pure 1
  | .outOfRange argument => do
    complain (argument ++ ": Numerical result out of range")
    pure 1
  | .noDirective written => do
    complain (written ++ ": invalid directive")
    pure 2
  | .noLetter => do
    complain "missing format character"
    pure 2
  | .noDigits => pure 1

/-- Prints arguments in a format. -/
def printf : Builtin := fun arguments => do
  let (_, given) ← letters [] arguments
  match given with
  | [] => fail "usage: printf format [arg ...]"
  | format :: others =>
    let formatted := Host.format .builtIn format others
    let mut status := 0
    for problem in formatted.problems do
      status := max status (← tellProblem problem)
    return max status (← print "printf" formatted.bytes)

/-! ## Conditions -/

/-- Tells by the status whether a condition holds. -/
def test (closed : Bool) : Builtin := fun arguments => do
  let state ← get
  let isPipe (path : Text) : Bool :=
    match (devicePath? path).bind state.stream? with
    | some (.channel _) | some (.pipe _) => true
    | some (.opened number) =>
      match state.opened? number with
      | some (.supply ..) => true
      | _ => false
    | _ => false
  let facts : Condition.Facts := ⟨state.files, state.programs, isPipe⟩
  if closed && arguments.getLast? != some "]" then fail Condition.Problem.unended.message
  else
    let words := if closed then arguments.dropLast else arguments
    match Condition.holds facts (words.length + 2) words with
    | .ok true => pure 0
    | .ok false => pure 1
    | .error problem => fail problem.message

/-! ## Directories -/

/-- The names of a path without those that lead nowhere or back. -/
def straightened (names : List Text) : List Text :=
  (names.foldl (fun (kept : List Text) (name : Text) =>
    if name = "." then kept else if name = ".." then kept.tail else name :: kept) []).reverse

/-- The paths that a program or directory with a name may be at, given a search path. -/
def searchPaths (path name : Text) : List Text :=
  (Text.splitAll ':' path).map fun (directory : Text) =>
    if directory = [] then name else Path.join directory name

/-- The path that a directory is found at, if it is looked for on the search path of directories. -/
def foundDirectory? (state : State) (name : Text) : Option Text :=
  let first := name.takeWhile (· != '/')
  if first = [] ∨ first = "." ∨ first = ".." then none
  else
    (state.value? "CDPATH").bind fun path =>
      (searchPaths path name).find? state.files.isDirectory

/-- Makes a directory the current one. -/
def changeDirectory : Builtin := fun arguments => do
  let (given, operands) ← letters "LP" arguments
  let state ← get
  let isBack := operands.head? = some ['-']
  let wanted : Text :=
    match operands with
    | ['-'] :: _ => (state.value? "OLDPWD").getD []
    | path :: _ => path
    | [] => (state.value? "HOME").getD []
  let found := foundDirectory? state wanted
  let isTold := isBack || found.any (· != wanted)
  let target := found.getD wanted
  let logical := Path.ofNames (straightened (Path.names (Path.join state.directory target)))
  let path := if given.getLast? = some 'P' then Path.join state.files.currentPath target
    else logical
  match state.files.locate path, state.files.isDirectory path with
  | .ok place, true =>
    let directory := if given.getLast? = some 'P' then Path.ofNames place else logical
    let moved := if target = [] then state else
      { state with files := { state.files with current := place }, directory }
    set ((moved.assignKnown "OLDPWD" state.directory).assignKnown "PWD" moved.directory)
    if isTold then printText "cd" (moved.directory ++ "\n") else pure 0
  | _, _ => fail ("can\x27t cd to " ++ wanted)

def printDirectory : Builtin := fun arguments => do
  let (given, _) ← letters "LP" arguments
  let state ← get
  let path := if given.getLast? = some 'P' then state.files.currentPath else state.directory
  printText "pwd" (path ++ "\n")

/-! ## Variables -/

/-- The names of variables in order. -/
def sortedBindings (state : State) : List Binding :=
  (Text.sort (state.bindings.map (·.name))).filterMap state.binding?

/-- The lines that make variables what they are, each one after a word. -/
def shownBindings (word : Text) (bindings : List Binding) : Text :=
  Text.unlines (bindings.map fun binding =>
    word ++ binding.name ++ (match binding.value with
      | some value => "=" ++ quoted value
      | none => []))

/-- Marks variables, which may also be given values, or prints those that are marked. -/
def mark (name : Text) (isMarked : Binding → Bool) (change : Binding → Binding) : Builtin :=
  fun arguments => do
    let (given, operands) ← letters "p" arguments
    if operands.isEmpty || given.contains 'p' then
      printText name (shownBindings (name ++ " ")
        ((sortedBindings (← get)).filter isMarked))
    else
      for operand in operands do
        let (target, value) : Text × Option Text :=
          match Text.splitOnce "=" operand with
          | some (target, value) => (target, some value)
          | none => (operand, none)
        match value with
        | some value => assignChecked target value
        | none => if isName target then pure () else fail (target ++ ": bad variable name")
        modify fun state =>
          state.setBinding target
            (some (change ((state.binding? target).getD ⟨target, none, false, false⟩)))
      pure 0

/-- Makes variables known to programs. -/
def makeKnown : Builtin := mark "export" (·.exported) ({ · with exported := true })

/-- Makes variables such that they cannot be changed. -/
def makeFixed : Builtin := mark "readonly" (·.readOnly) ({ · with readOnly := true })

/-- Makes variables local to the function at work. -/
def makeLocal : Builtin := fun arguments => do
  for argument in arguments do
    let (name, value) : Text × Option Text :=
      match Text.splitOnce "=" argument with
      | some (name, value) => (name, some value)
      | none => (argument, none)
    let state ← get
    match state.scopes with
    | [] => fail "not in a function"
    | scope :: scopes =>
      if !isName name && value.isNone then fail (name ++ ": bad variable name")
      if !scope.any (·.1 == name) then
        set { state with scopes := ((name, state.binding? name) :: scope) :: scopes }
      match value with
      | some value => assign name value
      | none => pure ()
  if (← get).scopes.isEmpty then fail "not in a function"
  pure 0

/-- Removes variables or functions. -/
def unset : Builtin := fun arguments => do
  let (given, names) ← letters "vf" arguments
  for name in names do
    let state ← get
    if given.getLast? = some 'f' then
      set { state with functions := state.functions.filter (·.name != name) }
    else if (state.binding? name).any (·.readOnly) then fail (name ++ ": is read only")
    else if !isName name then fail (name.takeWhile (· != '=') ++ ": bad variable name")
    else set (state.setBinding name none)
  pure 0

/-! ## Options and arguments of the shell -/

/-- The options of a shell with their letters, in the order in which they are listed. -/
def optionNames : List (Text × Option Char) := [
  ⟨"errexit", some 'e'⟩,
  ⟨"noglob", some 'f'⟩,
  ⟨"ignoreeof", some 'I'⟩,
  ⟨"interactive", some 'i'⟩,
  ⟨"monitor", some 'm'⟩,
  ⟨"noexec", some 'n'⟩,
  ⟨"stdin", some 's'⟩,
  ⟨"xtrace", some 'x'⟩,
  ⟨"verbose", some 'v'⟩,
  ⟨"vi", some 'V'⟩,
  ⟨"emacs", some 'E'⟩,
  ⟨"noclobber", some 'C'⟩,
  ⟨"allexport", some 'a'⟩,
  ⟨"notify", some 'b'⟩,
  ⟨"nounset", some 'u'⟩,
  ⟨"privileged", some 'p'⟩,
  ⟨"nolog", none⟩,
  ⟨"debug", none⟩]

/-- The letters of options in the order in which they are shown. -/
def optionLetters : Text := (optionNames.filterMap (·.2)).reverse

/-- Turns an option on or off. -/
def setOption (letter : Char) (on : Bool) : Action Unit := do
  if !optionLetters.contains letter then fail ("Illegal option -" ++ [letter])
  modify fun state =>
    { state with
      options := optionLetters.filter fun other =>
        if other = letter then on else state.options.contains other }

/-- Turns an option on or off that is given by its name. -/
def setNamedOption (name : Text) (on : Bool) : Action Unit :=
  match optionNames.lookup name with
  | some (some letter) => setOption letter on
  | some none => pure ()
  | none => fail ("Illegal option -o " ++ name)

/-- The list of options, as it is read or as commands that set them. -/
def optionList (state : State) (asCommands : Bool) : Text :=
  let isOn (letter : Option Char) : Bool := letter.any state.has
  let lines := optionNames.map fun (name, letter) =>
    if asCommands then (if isOn letter then "set -o " else "set +o ").toList ++ name
    else Text.padRight 16 name ++ (if isOn letter then "on" else "off").toList
  Text.unlines (if asCommands then lines else "Current option settings" :: lines)

/-- Turns the options on or off that are given by letters; one of them is given by the name after
them. The names that are left follow. -/
def setLetters (on : Bool) : Text → List Text → Action (List Text)
  | [], others => pure others
  | 'o' :: rest, [] => do
    let _ ← printText "set" (optionList (← get) !on)
    setLetters on rest []
  | 'o' :: rest, name :: others => do
    setNamedOption name on
    setLetters on rest others
  | letter :: rest, others => do
    setOption letter on
    setLetters on rest others

/-- Turns options on and off, and tells the arguments after them, if there are any to be set. -/
def setOptions : (limit : Nat) → List Text → Action (Option (List Text))
  | 0, _ => pure none
  | _, [] => pure none
  | limit + 1, argument :: others =>
    match argument with
    | ['-', '-'] => pure (some others)
    | ['-'] => do
      setOption 'x' false
      setOption 'v' false
      pure (if others.isEmpty then none else some others)
    | '-' :: letters => do setOptions limit (← setLetters true letters others)
    | '+' :: letters => do setOptions limit (← setLetters false letters others)
    | _ => pure (some (argument :: others))

/-- Sets options and arguments, or prints the variables. -/
def setAll : Builtin := fun arguments => do
  if arguments.isEmpty then
    printText "set" (shownBindings [] ((sortedBindings (← get)).filter (·.value.isSome)))
  else
    match ← setOptions (arguments.length + 1) arguments with
    | some values => modify ({ · with arguments := values, optionOffset := 0 })
    | none => pure ()
    pure 0

def shift : Builtin := fun arguments => do
  let count ← match arguments with
    | [] => pure 1
    | word :: _ => number word
  let state ← get
  if state.arguments.length < count then fail "can\x27t shift that many"
  else
    set { state with arguments := state.arguments.drop count, optionOffset := 0 }
    pure 0

/-- Sets variables to an option of arguments: its letter, its value and the place after it. -/
def setFound (target : Text) (letter : Char) (value : Option Text) (place offset : Nat) :
    Action Unit := do
  match value with
  | some value => modify (·.assign "OPTARG" value)
  | none => modify (·.setBinding "OPTARG" none)
  modify (·.assign "OPTIND" (Text.ofNat place))
  assignChecked target [letter]
  modify ({ · with optionOffset := offset })

def nextOption : Builtin := fun arguments => do
  match arguments with
  | wanted :: target :: given =>
    let state ← get
    let words := if given.isEmpty then state.arguments else given
    let stored := ((state.value? "OPTIND").bind fun text =>
      if text.all Char.isDigit then some (Host.Escape.spelled 10 text) else none).getD 1
    let place := if words.length + 1 < stored ∨ stored = 0 then 1 else stored
    let inside := if 1 < place ∧ 0 < state.optionOffset then
      (words.getD (place - 2) []).drop state.optionOffset else []
    let next : Option (Text × Nat × Nat) :=
      match inside with
      | _ :: _ => some (inside, place, state.optionOffset)
      | [] =>
        match words[place - 1]? with
        | some ('-' :: letter :: rest) => some (letter :: rest, place + 1, 1)
        | _ => none
    let isQuiet := wanted.head? = some ':'
    match next with
    | none =>
      setFound target '?' (state.value? "OPTARG") place 0
      pure 1
    | some (['-'], after, _) =>
      setFound target '?' (state.value? "OPTARG") after 0
      pure 1
    | some (letters, after, offset) =>
      let letter := letters.head?.getD '?'
      let rest := letters.drop 1
      let left := if rest = [] then 0 else offset + 1
      match if letter = ':' then none else Text.splitOnce [letter] wanted with
      | none =>
        if !isQuiet then tell ("Illegal option -" ++ [letter] ++ "\n")
        setFound target '?' (if isQuiet then some [letter] else none) after left
      | some (_, ':' :: _) =>
        match rest, words[after - 1]? with
        | _ :: _, _ => setFound target letter (some rest) after 0
        | [], some value => setFound target letter (some value) (after + 1) 0
        | [], none =>
          if !isQuiet then tell ("No arg for -" ++ [letter] ++ " option\n")
          setFound target (if isQuiet then ':' else '?') (if isQuiet then some [letter] else none)
            after 0
      | some _ => setFound target letter (some []) after left
      pure 0
  | _ => fail "Usage: getopts optstring var [arg...]"

/-! ## Reading -/

/-- The bytes of a line, each one quoted or not, how many bytes it takes, and whether its end has
been met. -/
def readLine (raw : Bool) : Bytes → List (UInt8 × Bool) × Nat × Bool
  | [] => ([], 0, false)
  | byte :: rest =>
    if byte = Bytes.lineFeed then ([], 1, true)
    else if byte = 0x5C ∧ !raw then
      match rest with
      | [] => ([], 1, false)
      | next :: others =>
        let (line, count, ended) := readLine raw others
        (if next = Bytes.lineFeed then line else (next, true) :: line, count + 2, ended)
    else
      let (line, count, ended) := readLine raw rest
      (if byte = 0 then line else (byte, false) :: line, count + 1, ended)

/-- Bytes as text whose characters are quoted or not. -/
def markedOfBytes (bytes : List (UInt8 × Bool)) : MarkedText :=
  (bytes.splitBy fun left right => left.2 == right.2).flatMap fun group =>
    (Bytes.loose (group.map (·.1))).map (·, group.any (·.2))

/-- Whether a character separates words, and whether it is a blank one. -/
def separates (separators : Text) (entry : Char × Bool) : Bool :=
  !entry.2 && separators.contains entry.1

/-- Whether a character is a blank that separates words. -/
def isBlank (separators : Text) (entry : Char × Bool) : Bool :=
  separates separators entry && Arithmetic.isSpace entry.1

/-- The word at the beginning of a text, and what follows the separation after it. -/
def takeWord (separators : Text) (text : MarkedText) : MarkedText × MarkedText :=
  let word := text.takeWhile (!separates separators ·)
  let after := (text.drop word.length).dropWhile (isBlank separators)
  match after with
  | entry :: rest =>
    if separates separators entry then (word, rest.dropWhile (isBlank separators))
    else (word, after)
  | [] => (word, [])

/-- The values of names, of which the last one takes all that is left of a text. -/
def wordsFor (separators : Text) : List Text → MarkedText → List (Text × Text)
  | [], _ => []
  | [name], text =>
    let (word, rest) := takeWord separators text
    let all := (text.reverse.dropWhile (isBlank separators)).reverse
    [(name, MarkedText.plain (if rest = [] then word else all))]
  | name :: names, text =>
    let (word, rest) := takeWord separators text
    (name, word.plain) :: wordsFor separators names rest

/-- Reads a line of the input into variables. -/
def read : Builtin := fun arguments => do
  let (given, names) ← options "r" "p" (arguments.flatten.length + 1) arguments
  if names.isEmpty then fail "arg count"
  let state ← get
  match state.supply? 0 with
  | none =>
    for name in names do
      assignChecked name []
    pure 1
  | some (supply, _) =>
    let (line, count, ended) := readLine (given.any (·.1 == 'r')) (suppliedBytes supply)
    set (state.consume 0 count !ended)
    let separators := state.separators
    let text := (markedOfBytes line).dropWhile (isBlank separators)
    for (name, value) in wordsFor separators names text do
      assignChecked name value
    pure (if ended then 0 else 1)

/-! ## Names of commands -/

/-- The path of the program with a name. -/
def findProgram? (state : State) (name : Text) : Option Text :=
  (searchPaths ((state.value? "PATH").getD []) name).find? fun path =>
    (state.files.locate path).toOption.any state.programs.contains

/-- What a command's name stands for. -/
inductive Meaning where
  | keyword
  | abbreviation (text : Text)
  | function
  | special
  | builtin
  | program (path : Text) (hashed : Bool)

/-- The commands of the shell that are no special ones. -/
def ordinary : List Text :=
  ["[", "alias", "bg", "cd", "chdir", "command", "echo", "false", "fg", "getopts", "hash", "jobs",
    "kill", "printf", "pwd", "read", "test", "true", "type", "ulimit", "umask", "unalias", "wait"]

/-- Whether a name is that of a command of the shell whose errors end the shell. -/
def isSpecial (name : Text) : Bool := specialBuiltins.contains name || name == "local"

/-- What a name stands for, if it does for anything. -/
def meaning? (state : State) (name : Text) : Option Meaning :=
  if keywords.contains name then some .keyword
  else
    match state.aliases.lookup name with
    | some text => some (.abbreviation text)
    | none =>
      if state.functions.any (·.name == name) then some .function
      else if isSpecial name then some .special
      else if ordinary.contains name then some .builtin
      else if name.contains '/' then
        if (state.files.locate name).toOption.any state.programs.contains then
          some (.program name false)
        else none
      else
        (findProgram? state name).map (.program · (state.hashed.contains name))

/-- What a name stands for, in words. -/
def describe (state : State) (name : Text) : Text × Bool :=
  let told (text : Text) : Text × Bool := (name ++ text ++ "\n", true)
  match meaning? state name with
  | some .keyword => told " is a shell keyword"
  | some (.abbreviation text) => told (" is an alias for " ++ text)
  | some .function => told " is a shell function"
  | some .special => told " is a special shell builtin"
  | some .builtin => told " is a shell builtin"
  | some (.program path hashed) =>
    told ((if hashed then " is a tracked alias for " else " is ").toList ++ path)
  | none => (name ++ ": not found\n", false)

/-- Prints what names stand for. -/
def type : Builtin := fun arguments => do
  let state ← get
  let told := arguments.map (describe state)
  for name in arguments do
    if (findProgram? state name).isSome then modify (·.hash name)
  let status ← printText "type" (told.flatMap (·.1))
  pure (if told.all (·.2) then status else 127)

/-- Prints what a command would be. -/
def locate (long : Bool) (name : Text) : Action Nat := do
  let state ← get
  if long then
    let (text, found) := describe state name
    let status ← printText "command" text
    pure (if found then status else 127)
  else
    match meaning? state name with
    | some (.abbreviation text) =>
      printText "command" ("alias " ++ name ++ "=" ++ quoted text ++ "\n")
    | some (.program path _) =>
      modify (·.hash name)
      printText "command" (path ++ "\n")
    | some _ => printText "command" (name ++ "\n")
    | none => pure 127

/-- Defines abbreviations, or prints them. -/
def abbreviate : Builtin := fun arguments => do
  let shown (entry : Text × Text) : Text := entry.1 ++ "=" ++ quoted entry.2 ++ "\n"
  if arguments.isEmpty then
    let state ← get
    printText "alias" ((Text.sort (state.aliases.map (·.1))).flatMap fun name =>
      shown (name, (state.aliases.lookup name).getD []))
  else
    let mut status := 0
    for argument in arguments do
      let state ← get
      match Text.splitOnce "=" argument with
      | some (name, value) =>
        set { state with
          aliases := (name, value) :: state.aliases.filter (·.1 != name) }
      | none =>
        match state.aliases.lookup argument with
        | some value => status := max status (← printText "alias" (shown (argument, value)))
        | none =>
          tell ("alias: " ++ argument ++ " not found\n")
          status := 1
    pure status

def dropAbbreviations : Builtin := fun arguments => do
  let (given, names) ← letters "a" arguments
  if given.contains 'a' then modify ({ · with aliases := [] })
  let mut status := 0
  for name in names do
    let state ← get
    if state.aliases.any (·.1 == name) then
      set { state with aliases := state.aliases.filter (·.1 != name) }
    else
      tell ("unalias: " ++ name ++ " not found\n")
      status := 1
  pure status

/-! ## Signals and jobs -/

/-- Tells what is done on signals, or changes it. -/
def trap : Builtin := fun arguments => do
  let (_, given) ← letters [] arguments
  let state ← get
  match given with
  | [] =>
    printText "trap" (Signal.all.flatMap fun signal =>
      match state.trap? signal with
      | some action => "trap -- " ++ quoted action ++ " " ++ signal.name ++ "\n"
      | none => [])
  | first :: others =>
    let isReset := others.isEmpty || (first != [] && first.all Char.isDigit)
    let names := if isReset then given else others
    let change : Option Text := if isReset || first == ['-'] then none else some first
    for name in names do
      match Signal.find? name with
      | some signal => modify (·.setTrap change signal)
      | none =>
        tell ("trap: " ++ name ++ ": bad trap\n")
        return 1
    pure 0

/-- The job that a word names, by its number among the jobs. -/
def jobNamed (state : State) (word : Text) : Action Job :=
  let place : Option Nat :=
    match word with
    | ['%'] | ['%', '%'] | ['%', '+'] => some state.jobs.length
    | ['%', '-'] => some (state.jobs.length - 1)
    | '%' :: digits =>
      if digits.all Char.isDigit then some (Host.Escape.spelled 10 digits) else none
    | _ => none
  match place.bind fun place => if place = 0 then none else state.jobs[place - 1]? with
  | some job => pure job
  | none => fail ("No such job: " ++ word)

def processNamed (state : State) (word : Text) : Action Nat :=
  match word with
  | '%' :: _ => do return (← jobNamed state word).process
  | '-' :: digits => number digits
  | _ => number word

/-- Whether a process is there at the time. -/
def isAlive (state : State) (process : Nat) : Bool :=
  process == state.number || process == state.shellNumber || process == state.parent ||
    state.jobs.any fun job =>
      job.process == process && !job.reaped && job.ending.all fun (_, time) => state.time ≤ time

/-- Sends a signal to a process, and tells whether that is there. A process in the background is to
be looked at again. -/
def send (signal : Signal) (process : Nat) : Action Bool := do
  let state ← get
  let target := if process = 0 then state.number else process
  if !isAlive state target then pure false
  else
    if signal.number != 0 then
      set { state with
        signals := state.signals ++
          [(⟨target, false, state.time, signal, state.lineage⟩ : SentSignal)]
        jobs := state.jobs.map fun (job : Job) =>
          if job.process = target && !job.done then { job with ending := none } else job }
    pure true

/-- The usage of the command that sends signals. -/
def killUsage : Text :=
  "Usage: kill [-s sigspec | -signum | -sigspec] [pid | job]... or\nkill -l [exitstatus]"

/-- Prints the names of signals. -/
def listSignals (arguments : List Text) : Action Nat := do
  match arguments with
  | [] =>
    let names := Signal.all.map fun signal => if signal.number = 0 then "0".toList else signal.name
    printText "kill" (Text.unlines names)
  | word :: _ =>
    let status ← number word
    let code := if 128 < status then status - 128 else status
    match Signal.all.find? fun signal => signal.number == code && 0 < code with
    | some signal => printText "kill" (signal.name ++ "\n")
    | none => fail ("invalid signal number or exit status: " ++ word)

/-- The signal that a word names; the one that stands for the end of a shell is none. -/
def signalNamed? (word : Text) : Option Signal :=
  if word.all Char.isDigit && word != [] then
    Signal.all.find? fun signal => signal.number == Host.Escape.spelled 10 word
  else (Signal.find? word).filter (·.number != 0)

/-- Sends signals to processes. -/
def kill : Builtin := fun arguments => do
  let direct : Option (Signal × List Text) :=
    match arguments with
    | ('-' :: name) :: others => (signalNamed? name).map (·, others)
    | _ => none
  let (signal, isList, targets) : Option Signal × Bool × List Text ←
    match direct, arguments with
    | some (signal, others), _ => pure (some signal, false, others)
    | none, ('-' :: _) :: _ => do
      let (given, others) ← options "l" "s" (arguments.flatten.length + 1) arguments
      let named ← given.findM? fun (letter, name) =>
        if letter = 's' then
          if (signalNamed? name).isNone then fail ("invalid signal number or name: " ++ name)
          else pure true
        else pure false
      pure (named.bind fun (_, name) => signalNamed? name, given.any (·.1 == 'l'), others)
    | none, _ => pure (none, false, arguments)
  if isList then listSignals targets
  else if targets.isEmpty then fail killUsage
  else
    let mut status := 0
    for word in targets do
      let process ← processNamed (← get) word
      let isSent ← send (signal.getD ⟨15, "TERM", "Terminated", false⟩) process
      if !isSent then
        complain "No such process\n"
        status := 1
    pure status

/-- Prints the jobs and how they are. Those that have ended are then forgotten. -/
def jobs : Builtin := fun _ => do
  let state ← get
  let isDone (job : Job) : Bool := job.ending.any fun (_, time) => time ≤ state.time
  let line (entry : Job × Nat) : Text :=
    let mark := if entry.2 = state.jobs.length then '+' else if entry.2 + 1 = state.jobs.length
      then '-' else ' '
    let how : Text :=
      match entry.1.ending with
      | some (.exited 0, _) => "Done"
      | some (.exited status, _) => "Done(" ++ Text.ofNat status ++ ")"
      | some (.killed signal, _) => signal.description
      | _ => "Running"
    Text.padRight 33 ("[" ++ Text.ofNat entry.2 ++ "] " ++ [mark] ++ " " ++
      (if isDone entry.1 then how else "Running")) ++ "\n"
  let shown := (state.jobs.zipIdx 1).flatMap line
  set { state with jobs := state.jobs.filter (!isDone ·) }
  printText "jobs" shown

/-! ## Limits -/

/-- A number with four octal digits. -/
def octalMask (mask : Nat) : Text :=
  Text.replaceChar ' ' '0' (Text.padLeft 4 (Nat.toDigits 8 mask))

/-- The permissions that a mask leaves to each kind of user. -/
def symbolicMask (mask : Nat) : Text :=
  let kind (name : Char) (unit : Nat) : Text :=
    let taken := mask / unit % 8
    let letter (bit : Nat) (shown : Char) : Text := if taken / bit % 2 = 0 then [shown] else []
    [name, '='] ++ letter 4 'r' ++ letter 2 'w' ++ letter 1 'x'
  Text.join "," [kind 'u' 64, kind 'g' 8, kind 'o' 1]

/-- Prints or sets which permissions new files do not get. -/
def mask : Builtin := fun arguments => do
  let (given, operands) ← letters "S" arguments
  let state ← get
  match operands with
  | [] =>
    printText "umask" ((if given.contains 'S' then symbolicMask state.mask
      else octalMask state.mask) ++ "\n")
  | word :: _ =>
    if word.all Char.isDigit then
      if word.all Host.Escape.isOctal then
        set { state with mask := Host.Escape.spelled 8 word % 512 }
        pure 0
      else fail ("Illegal number: " ++ word)
    else pure 0

/-- Prints a limit of the system. -/
def limit : Builtin := fun arguments => do
  match arguments with
  | [] | [['-', _]] => printText "ulimit" "unlimited\n"
  | _ => pure 0

/-- Prints how much time has been used: none. -/
def times : Builtin := fun _ => do
  let line : Text := "0m0.000000s 0m0.000000s\n"
  printText "times" (line ++ line)

/-! ## Going elsewhere -/

/-- Ends the shell; in what is done on a signal, by default with the status from before. -/
def exit : Builtin := fun arguments => do
  match arguments with
  | [] =>
    match (← get).trapStatus with
    | some status => setStatus status
    | none => pure ()
  | word :: _ => setStatus (← number word)
  throw .exited

def leaveFunction : Builtin := fun arguments => do
  match arguments with
  | [] => pure ()
  | word :: _ => setStatus (← number word)
  throw .returning

/-- Leaves a number of loops, as far as there are so many. -/
def leaveLoops (stop : Nat → Stop) : Builtin := fun arguments => do
  let count ← match arguments with
    | [] => pure 1
    | word :: _ => do
      let count ← number word
      if count = 0 then fail ("Illegal number: " ++ word) else pure count
  setStatus 0
  match min count (← get).loops with
  | 0 => pure 0
  | loops => throw (stop loops)

/-- The commands with their names. -/
def table : List (Text × Builtin) := [
  ⟨":", fun _ => pure 0⟩,
  ⟨"true", fun _ => pure 0⟩,
  ⟨"false", fun _ => pure 1⟩,
  ⟨"echo", echo⟩,
  ⟨"printf", printf⟩,
  ⟨"test", test false⟩,
  ⟨"[", test true⟩,
  ⟨"cd", changeDirectory⟩,
  ⟨"chdir", changeDirectory⟩,
  ⟨"pwd", printDirectory⟩,
  ⟨"export", makeKnown⟩,
  ⟨"readonly", makeFixed⟩,
  ⟨"local", makeLocal⟩,
  ⟨"unset", unset⟩,
  ⟨"set", setAll⟩,
  ⟨"shift", shift⟩,
  ⟨"getopts", nextOption⟩,
  ⟨"read", read⟩,
  ⟨"type", type⟩,
  ⟨"alias", abbreviate⟩,
  ⟨"unalias", dropAbbreviations⟩,
  ⟨"trap", trap⟩,
  ⟨"kill", kill⟩,
  ⟨"jobs", jobs⟩,
  ⟨"umask", mask⟩,
  ⟨"ulimit", limit⟩,
  ⟨"times", times⟩,
  ⟨"exit", exit⟩,
  ⟨"return", leaveFunction⟩,
  ⟨"break", leaveLoops .leaving⟩,
  ⟨"continue", leaveLoops .skipping⟩]

end Builtin

end CompiledViews.Shell
