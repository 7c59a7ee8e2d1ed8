import CompiledViews.Host.Utility.Regular

/-!
# Utilities that search

Lines are chosen by expressions, and changed where these match.
-/

namespace CompiledViews.Utility

/-! ## Choosing lines -/

/-- What lines are chosen by: expressions of which one has to match, without regard to the case of
letters if `folded`, as whole lines or words if wanted. Lines without a match are chosen if
`inverse`. -/
structure LineTest where
  expressions : List Regular
  folded : Bool
  wholeLine : Bool
  wholeWord : Bool
  inverse : Bool

namespace LineTest

/-- Whether a match is what is wanted of it. -/
def admits (test : LineTest) (found : Regular.Match) : Bool :=
  let isWord (character : Option Char) : Bool :=
    character.any fun c => c.isAlphanum || c == '_'
  (!test.wholeLine || (found.before == [] && found.after == [])) &&
    (!test.wholeWord || (!isWord found.before.getLast? && !isWord found.after.head?))

def matchesIn (test : LineTest) (line : Text) : List Regular.Match :=
  test.expressions.flatMap fun expression =>
    (expression.searchAll test.folded (line.length + 1) [] line).filter test.admits

def chooses (test : LineTest) (line : Text) : Bool :=
  (test.matchesIn line).isEmpty == test.inverse

end LineTest

/-- Prints the lines of files that expressions match. -/
def grep : Utility Unit :=
  withOptionsAs 2 "EFGvcniqolLwxshHra" "em" fun options => do
    let (patterns, paths) :=
      match options.has 'e', options.operands with
      | true, operands => (options.values 'e', operands)
      | false, pattern :: operands => ([pattern], operands)
      | false, [] => ([], [])
    if patterns.isEmpty then
      tell "Usage: grep [OPTION]... PATTERNS [FILE]...\n"
      hint
      fail 2
    else
      let wanted := patterns.flatMap (Text.splitAll '\n')
      let test : LineTest :=
        { expressions := wanted.map fun pattern =>
            if options.has 'F' then Regular.literal pattern
            else Regular.read (options.has 'E') pattern
          folded := options.has 'i'
          wholeLine := options.has 'x'
          wholeWord := options.has 'w'
          inverse := options.has 'v' }
      let named := (1 < paths.length || options.has 'H') && !options.has 'h'
      let mut found := false
      let mut failed := false
      let stop := if options.has 'q' then some 1 else (options.value? 'm').bind natural?
      for path in if paths.isEmpty then [['-']] else paths do
        let shown : Text := if path = ['-'] then "(standard input)" else path
        let start (mark : Text) : Text := if named then shown ++ mark else []
        match ← readPath path with
        | .error reason =>
          failed := true
          if !options.has 's' then tell ((← read).name ++ ": " ++ path ++ ": " ++ reason ++ "\n")
        | .ok bytes =>
          let lines := (textLines bytes).zipIdx 1
          let all := lines.filter fun (line, _) => test.chooses line
          let chosen := match stop with
            | some count => all.take count
            | none => all
          if chosen != [] then found := true
          if isInput path && stop == some chosen.length then
            readLines ((chosen.getLast?.map (·.2)).getD 0) bytes
          if options.has 'q' then pure ()
          else if options.has 'l' then
            if chosen != [] then printLine shown
          else if options.has 'L' then
            if chosen == [] then printLine shown
          else if options.has 'c' then printLine (start ":" ++ Text.ofNat chosen.length)
          else
            for (line, number) in chosen do
              let label := start ":" ++ (if options.has 'n' then Text.ofNat number ++ ":" else [])
              if options.has 'o' then
                for part in test.matchesIn line do
                  if part.matched != [] then printLine (label ++ part.matched)
              else printLine (label ++ line)
      fail (if failed && !(found && options.has 'q') then 2 else if found then 0 else 1)

/-! ## Changing lines -/

/-- Which lines an edit is for: one with a number, the last one, or those that an expression
matches. -/
inductive Address where
  | line (number : Nat)
  | last
  | matching (expression : Regular)

/-- A part of what is put in the place of a match: text, the match, or what a group has matched. -/
inductive ReplacementPart where
  | text (text : Text)
  | matched
  | group (number : Nat)

/-- How matches are replaced: all of them or from one on, and whether the line is then printed. -/
structure Substitution where
  expression : Regular
  folded : Bool
  parts : List ReplacementPart
  place : Nat
  all : Bool
  prints : Bool

/-- What is done with a line; a block is as many of the commands after it. -/
inductive Edit where
  | substitute (substitution : Substitution)
  | delete
  | print
  | quit
  | number
  | translate (old new : Text)
  | append (text : Text)
  | insert (text : Text)
  | change (text : Text)
  | next
  | hold (add : Bool)
  | recall (add : Bool)
  | exchange
  | block (count : Nat)

/-- An edit of the lines from an address to another one, or of all others. -/
structure EditCommand where
  start : Option Address
  stop : Option Address
  negated : Bool
  edit : Edit

namespace EditCommand

/-- The text up to a mark that is not quoted, and what follows it. A quoted mark stands for
itself. -/
def untilMark (mark : Char) : Text → Option (Text × Text)
  | [] => none
  | '\\' :: character :: rest =>
    (untilMark mark rest).map fun (inside, after) =>
      (if character = mark then character :: inside else '\\' :: character :: inside, after)
  | character :: rest =>
    if character = mark then some ([], rest)
    else (untilMark mark rest).map fun (inside, after) => (character :: inside, after)

def readReplacement : Text → List ReplacementPart
  | [] => []
  | '&' :: rest => .matched :: readReplacement rest
  | '\\' :: 'n' :: rest => .text "\n" :: readReplacement rest
  | '\\' :: 't' :: rest => .text "\t" :: readReplacement rest
  | '\\' :: character :: rest =>
    (if character.isDigit then
      if character = '0' then .matched else .group (character.toNat - 0x30)
    else .text [character]) :: readReplacement rest
  | character :: rest => .text [character] :: readReplacement rest

/-- The address at the beginning of a text, and what follows it. -/
def readAddress (extended : Bool) (text : Text) : Option Address × Text :=
  match text with
  | '$' :: rest => (some .last, rest)
  | '/' :: rest =>
    match untilMark '/' rest with
    | some (pattern, after) => (some (.matching (Regular.read extended pattern)), after)
    | none => (none, text)
  | _ =>
    let digits := text.takeWhile Char.isDigit
    if digits = [] then (none, text)
    else (some (.line (Host.Escape.spelled 10 digits)), text.drop digits.length)

/-- What is wrong with a script of edits, and what is left of it after the fault. -/
structure Fault where
  reason : Text
  left : Text

/-- A reader of scripts of edits. -/
abbrev Reader := Except Fault

/-- Something that must be there; if it is not, the rest of the script is at fault. -/
def demand {α : Type} (reason : Text) (value : Option α) : Reader α :=
  match value with
  | some value => pure value
  | none => throw ⟨reason, []⟩

/-- Whether a text begins with what may follow a command. -/
def endsHere (text : Text) : Bool :=
  match text with
  | [] => true
  | character :: _ => (";\n#\x7d" : Text).contains character

/-- The substitution that follows its letter, and what follows that. -/
def readSubstitution (extended : Bool) (text : Text) : Reader (Edit × Text) := do
  let unterminated : Text := "unterminated \x60s\x27 command"
  let mark ← demand unterminated text.head?
  let (pattern, afterPattern) ← demand unterminated (untilMark mark text.tail)
  let (replacement, afterReplacement) ← demand unterminated (untilMark mark afterPattern)
  let isFlag (character : Char) : Bool := character.isDigit || ("gpIi" : Text).contains character
  let flags := afterReplacement.takeWhile isFlag
  let left := (afterReplacement.drop flags.length).dropWhile (· == ' ')
  if !endsHere left then throw ⟨"unknown option to \x60s\x27", left.tail⟩
  return (.substitute
    { expression := Regular.read extended pattern
      folded := flags.contains 'I' || flags.contains 'i'
      parts := readReplacement replacement
      place := max 1 (Host.Escape.spelled 10 (flags.filter Char.isDigit))
      all := flags.contains 'g'
      prints := flags.contains 'p' }, left)

/-- The edit at the beginning of a text, and what follows it. -/
def readEdit (extended : Bool) (text : Text) : Reader (Edit × Text) := do
  let line (rest : Text) : Reader Text :=
    let start := rest.dropWhile fun c => c == ' ' || c == '\\' || c == '\n'
    if start = [] then throw ⟨"expected \\ after \x60a\x27, \x60c\x27 or \x60i\x27", []⟩
    else pure (start.takeWhile (· != '\n'))
  match text with
  | 's' :: rest => readSubstitution extended rest
  | 'y' :: rest => do
    let unterminated : Text := "unterminated \x60y\x27 command"
    let mark ← demand unterminated rest.head?
    let (old, after) ← demand unterminated (untilMark mark rest.tail)
    let (new, left) ← demand unterminated (untilMark mark after)
    if old.length = new.length then pure (.translate old new, left)
    else throw ⟨"strings for \x60y\x27 command are different lengths", left⟩
  | 'a' :: rest => return (.append (← line rest), [])
  | 'i' :: rest => return (.insert (← line rest), [])
  | 'c' :: rest => return (.change (← line rest), [])
  | 'd' :: rest => pure (.delete, rest)
  | 'p' :: rest => pure (.print, rest)
  | 'q' :: rest => pure (.quit, rest)
  | '=' :: rest => pure (.number, rest)
  | 'n' :: rest => pure (.next, rest)
  | 'h' :: rest => pure (.hold false, rest)
  | 'H' :: rest => pure (.hold true, rest)
  | 'g' :: rest => pure (.recall false, rest)
  | 'G' :: rest => pure (.recall true, rest)
  | 'x' :: rest => pure (.exchange, rest)
  | character :: rest =>
    if character = ';' then throw ⟨"missing command", rest⟩
    else throw ⟨"unknown command: \x60" ++ [character] ++ "\x27", rest⟩
  | [] => throw ⟨"missing command", []⟩

/-- The commands that a script spells up to the end of a block, or all of them, and what follows. -/
def readCommands (extended : Bool) :
    (limit : Nat) → (inBlock : Bool) → Text → Reader (List EditCommand × Text)
  | 0, _, _ => throw ⟨"missing command", []⟩
  | limit + 1, inBlock, script => do
    match script.dropWhile fun c => c.isWhitespace || c == ';' with
    | [] => if inBlock then throw ⟨"unmatched \x60\x7b\x27", script⟩ else pure ([], [])
    | '#' :: rest => readCommands extended limit inBlock (rest.dropWhile (· != '\n'))
    | '\x7d' :: rest =>
      if inBlock then pure ([], rest) else throw ⟨"unexpected \x60\x7d\x27", rest⟩
    | text =>
      let (start, afterStart) := readAddress extended text
      let (stop, afterStop) : Option Address × Text :=
        match afterStart with
        | ',' :: rest => readAddress extended rest
        | _ => (none, afterStart)
      let body := afterStop.dropWhile Char.isWhitespace
      let negated := body.head? == some '!'
      match (if negated then body.tail else body).dropWhile Char.isWhitespace with
      | '\x7b' :: inside => do
        let (block, left) ← readCommands extended limit true inside
        let (others, rest) ← readCommands extended limit inBlock left
        return (⟨start, stop, negated, .block block.length⟩ :: block ++ others, rest)
      | text => do
        let (edit, left) ← readEdit extended text
        let after := left.dropWhile fun c => c == ' '
        if !endsHere after then throw ⟨"extra characters after command", after.tail⟩
        let (others, rest) ← readCommands extended limit inBlock after
        return (⟨start, stop, negated, edit⟩ :: others, rest)

def readScript (extended : Bool) (script : Text) : Reader (List EditCommand) :=
  (readCommands extended (script.length + 1) false script).map (·.1)

end EditCommand

/-- A line with matches replaced, if there are any. -/
def Substitution.apply? (substitution : Substitution) (line : Text) : Option Text :=
  let found := substitution.expression.searchAll substitution.folded (line.length + 1) [] line
  let chosen := (found.drop (substitution.place - 1)).take
    (if substitution.all then found.length else 1)
  if chosen.isEmpty then none
  else
    let replaced (place : Regular.Match) : Text :=
      substitution.parts.flatMap fun part =>
        match part with
        | .text text => text
        | .matched => place.matched
        | .group number => (place.groups.lookup number).getD []
    let (changed, passed) := chosen.foldl (fun (before, passed) place =>
      (before ++ (place.before.drop passed) ++ replaced place,
        place.before.length + place.matched.length)) (([], 0) : Text × Nat)
    some (changed ++ line.drop passed)

/-- Where an editing of lines is: the line at hand and its number, what is held, the places of the
commands whose range is open, what has been printed, newest first, what is to be printed after the
line, and whether the line is gone or the last one to be edited. -/
structure Editing where
  line : Text
  number : Nat
  held : Text
  opened : List Nat
  printed : List Text
  after : List Text
  deleted : Bool
  ended : Bool

namespace Editing

/-- The editing after a line is printed. -/
def print (editing : Editing) (line : Text) : Editing :=
  { editing with printed := line :: editing.printed }

/-- Whether an address is that of the line. -/
def isAt (editing : Editing) (isLast : Bool) : Address → Bool
  | .line number => number == editing.number
  | .last => isLast
  | .matching expression => (expression.search? false editing.line).isSome

/-- Whether a command with a place among all of them is for the line, and the editing after that is
found out. -/
def chooses (editing : Editing) (isLast : Bool) (place : Nat) (command : EditCommand) :
    Bool × Editing :=
  let closed := { editing with opened := editing.opened.filter (· != place) }
  let (isIn, after) : Bool × Editing :=
    match command.start, command.stop with
    | none, _ => (true, editing)
    | some start, none => (editing.isAt isLast start, editing)
    | some start, some stop =>
      let isPast : Bool := match stop with
        | .line number => number ≤ editing.number
        | _ => false
      if editing.opened.contains place then
        (true, if editing.isAt isLast stop || isPast then closed else editing)
      else if editing.isAt isLast start then
        (true, if isPast then editing else { editing with opened := place :: editing.opened })
      else (false, editing)
  (isIn != command.negated, after)

/-- The editing after an edit; the lines after the one at hand tell whether that is the last one. -/
def apply (quiet : Bool) (editing : Editing) (edit : Edit) : Editing :=
  let joined (first second : Text) : Text := first ++ '\n' :: second
  match edit with
  | .substitute substitution =>
    match substitution.apply? editing.line with
    | some line =>
      let changed := { editing with line }
      if substitution.prints then changed.print line else changed
    | none => editing
  | .delete => { editing with deleted := true }
  | .print => editing.print editing.line
  | .quit => { editing with ended := true }
  | .number => editing.print (Text.ofNat editing.number)
  | .translate old new =>
    { editing with line := editing.line.map fun character =>
        match old.idxOf? character with
        | some place => new.getD place character
        | none => character }
  | .append text => { editing with after := editing.after ++ [text] }
  | .insert text => editing.print text
  | .change text => { editing.print text with deleted := true }
  | .next => if quiet then editing else editing.print editing.line
  | .hold add =>
    { editing with held := if add then joined editing.held editing.line else editing.line }
  | .recall add =>
    { editing with line := if add then joined editing.line editing.held else editing.held }
  | .exchange => { editing with line := editing.held, held := editing.line }
  | .block _ => editing

/-- The editing after the commands from one on, and the lines that are left. -/
def run (quiet : Bool) (commands : List (EditCommand × Nat)) (rest : List Text)
    (editing : Editing) : List Text × Editing :=
  match commands with
  | [] => (rest, editing)
  | (command, place) :: others =>
    if editing.deleted || editing.ended then (rest, editing)
    else
      let (isChosen, ready) := editing.chooses rest.isEmpty place command
      match isChosen, command.edit, rest with
      | false, .block count, _ => run quiet (others.drop count) rest ready
      | false, _, _ => run quiet others rest ready
      | true, .next, line :: left =>
        run quiet others left
          { ready.apply quiet .next with line, number := ready.number + 1 }
      | true, .next, [] => ([], { ready.apply quiet .next with deleted := true, ended := true })
      | true, edit, _ => run quiet others rest (ready.apply quiet edit)
termination_by commands.length
decreasing_by all_goals (simp only [wfParam, List.length_drop, List.length_cons]; omega)

/-- The editing after lines. -/
def runAll (quiet : Bool) (commands : List (EditCommand × Nat)) :
    (limit : Nat) → List Text → Editing → Editing
  | 0, _, editing => editing
  | _, [], editing => editing
  | limit + 1, line :: rest, editing =>
    let start := { editing with
      line, number := editing.number + 1, after := [], deleted := false }
    let (left, done) := run quiet commands rest start
    let shown := if quiet || done.deleted then done else done.print done.line
    let final := done.after.foldl print shown
    if final.ended then final else runAll quiet commands limit left final

end Editing

/-- Prints the lines of files with edits. -/
def sed : Utility Unit :=
  withOptions "nErsui" "e" fun options => do
    let (scripts, paths) :=
      match options.has 'e', options.operands with
      | true, operands => (options.values 'e', operands)
      | false, script :: operands => ([script], operands)
      | false, [] => ([], [])
    let script := Text.join "\n" scripts
    match EditCommand.readScript (options.has 'E' || options.has 'r') script with
    | .error fault =>
      let place := script.length - fault.left.length
      complain ("-e expression #1, char " ++ Text.ofNat place ++ ": " ++ fault.reason)
    | .ok commands =>
      let mut lines : List Text := []
      let mut ends := true
      let mut all : Bytes := []
      for path in if paths.isEmpty then [['-']] else paths do
        match ← readPath path with
        | .ok bytes =>
          lines := lines ++ textLines bytes
          all := all ++ bytes
          ends := bytes.getLast? != some Bytes.lineFeed
        | .error reason => complainAs 2 ("can\x27t read " ++ path ++ ": " ++ reason)
      let edited := Editing.runAll (options.has 'n') commands.zipIdx (lines.length + 1) lines
        ⟨[], 0, [], [], [], [], false, false⟩
      if edited.ended && paths.all isInput then readLines edited.number all
      let printed := Text.unlines edited.printed.reverse
      let shown := if ends && edited.number = lines.length then printed.dropLast else printed
      match options.has 'i', paths with
      | true, path :: _ =>
        let _ ← perform (FileTree.writeFile path (Text.bytes shown)) fun error =>
          "couldn\x27t open file " ++ path ++ ": " ++ error.description
      | _, _ => printText shown

end CompiledViews.Utility
