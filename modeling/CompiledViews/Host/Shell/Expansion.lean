import CompiledViews.Host.Shell.Arithmetic
import CompiledViews.Host.Shell.Grammar
import CompiledViews.Host.Shell.Pattern
import CompiledViews.Host.Shell.State
import CompiledViews.Text.Blank
import CompiledViews.Text.Order

/-!
# Expanding words

A word is expanded to glyphs, in which values are in the place of parameters, scripts and
expressions. What is not quoted is then split into words at separators, and a word that is a pattern
is replaced by the names that it matches.
-/

namespace CompiledViews.Shell

/-- A part of an expanded word: a character, which may be quoted or count as a separator if it is
one, the mark of something quoted, or the border between two arguments. -/
inductive Glyph where
  | char (character : Char) (quoted splits : Bool)
  | quotes
  | border
deriving DecidableEq, Repr

namespace Glyph

/-- The glyphs of a text. -/
def ofText (quoted splits : Bool) (text : Text) : List Glyph := text.map (char · quoted splits)

/-- The character of a glyph, and whether it is quoted. -/
def marked? : Glyph → Option (Char × Bool)
  | char character quoted _ => some (character, quoted)
  | quotes | border => none

/-- The glyphs of a value, which are split unless they are quoted. -/
def ofValue (quoted : Bool) (text : Text) : List Glyph := ofText quoted (!quoted) text

/-- The glyphs of arguments that stay apart. A quoted one is kept even if it is empty. -/
def ofArguments (quoted : Bool) : List Text → List Glyph
  | [] => []
  | [argument] => (if quoted then [quotes] else []) ++ ofValue quoted argument
  | argument :: others =>
    (if quoted then [quotes] else []) ++ ofValue quoted argument ++
      border :: ofArguments quoted others

end Glyph

/-- The characters of glyphs, and whether they are quoted. -/
def markedText (glyphs : List Glyph) : MarkedText := glyphs.filterMap Glyph.marked?

/-! ## Splitting into words -/

/-- Where splitting is: the words so far, newest first, the characters of the word at hand, newest
first, and whether a separator that is no blank still belongs to the separation before. -/
structure Splitting where
  finished : List MarkedText
  current : Option MarkedText
  separated : Bool

namespace Splitting

/-- Ends the word at hand. -/
def close (splitting : Splitting) : Splitting :=
  match splitting.current with
  | some word => { splitting with finished := word.reverse :: splitting.finished, current := none }
  | none => splitting

/-- Goes on after a separator, which is a blank or ends a word even if that is empty. -/
def separate (isBlank : Bool) (splitting : Splitting) : Splitting :=
  match splitting.current with
  | some _ => { splitting.close with separated := isBlank }
  | none =>
    if isBlank then splitting
    else if splitting.separated then { splitting with separated := false }
    else { splitting with finished := [] :: splitting.finished }

/-- Goes on after a glyph, where some characters are separators. -/
def step (separators : Text) (splitting : Splitting) (glyph : Glyph) : Splitting :=
  let word := splitting.current.getD []
  match glyph with
  | .quotes => { splitting with current := some word, separated := false }
  | .border => { splitting.close with separated := false }
  | .char character quoted splits =>
    if splits && separators.contains character then
      splitting.separate (Arithmetic.isSpace character)
    else
      { splitting with current := some ((character, quoted) :: word), separated := false }

end Splitting

/-- The words that glyphs make up, where some characters are separators. -/
def splitWords (separators : Text) (glyphs : List Glyph) : List MarkedText :=
  ((glyphs.foldl (Splitting.step separators) ⟨[], none, false⟩).close.finished).reverse

/-! ## Names that match -/

/-- The segments of a path that is a pattern. -/
def pathSegments : MarkedText → List MarkedText
  | [] => [[]]
  | entry :: rest =>
    if entry.1 = '/' then [] :: pathSegments rest
    else
      match pathSegments rest with
      | [] => [[entry]]
      | segment :: others => (entry :: segment) :: others

/-- The names in a directory that a segment matches; hidden ones only if it begins with a period. -/
def matchingNames (files : FileTree) (directory : Text) (segment : MarkedText) : List Text :=
  let pattern := Pattern.read segment
  let listed := (files.readDirectory (if directory = [] then "." else directory)).toOption
  match listed with
  | none => []
  | some names =>
    (([".", ".."] : List Text) ++ names).filter fun name =>
      pattern.accepts name && (name.head? != some '.' || segment.head?.any (·.1 == '.'))

/-- The paths that begin with a path as it is and go on with what segments match. -/
def matchingPaths (files : FileTree) : List MarkedText → (start : Text) → List Text
  | [], start => if files.present start then [start] else []
  | [segment], start =>
    if (Pattern.read segment).isWild then
      (matchingNames files start segment).map (start ++ ·)
    else
      let path := start ++ segment.plain
      if files.present path then [path] else []
  | segment :: others, start =>
    if (Pattern.read segment).isWild then
      ((matchingNames files start segment).map (start ++ ·)).flatMap fun path =>
        if files.isDirectory path then matchingPaths files others (path ++ "/") else []
    else matchingPaths files others (start ++ segment.plain ++ "/")

/-- The paths that a word matches as a pattern, if there are any; else the word itself. -/
def State.matchPaths (state : State) (word : MarkedText) : List Text :=
  if state.has 'f' || !(Pattern.read word).isWild then [word.plain]
  else
    match matchingPaths state.files (pathSegments word) [] with
    | [] => [word.plain]
    | paths => Text.sort paths

/-! ## Home directories -/

/-- The home directory of a user, by default the one that runs the shell. -/
def State.home? (state : State) (user : Text) : Option Text :=
  if user = [] then (state.value? "HOME").filter (· != [])
  else if user = "root" then some "/root"
  else none

/-- The parts of a word that begins with a tilde and the name of a user, up to a slash. -/
def State.homeParts? (state : State) (value : Text) : Option Word :=
  match value with
  | '~' :: rest =>
    let user := rest.takeWhile (· != '/')
    (state.home? user).map fun home =>
      [.quotes, .text home true, .text (rest.drop user.length) false]
  | _ => none

/-- A word with the home directory in place of a tilde that it begins with. -/
def State.expandHome (state : State) (word : Word) : Word :=
  match word with
  | .text value false :: others =>
    if !others.isEmpty && !value.contains '/' then word
    else
      match state.homeParts? value with
      | some parts => parts ++ others
      | none => word
  | _ => word

/-- A value of a variable with home directories in place of tildes that begin a path in it. -/
def State.expandHomes (state : State) (word : Word) : Word :=
  word.flatMap fun part =>
    match part with
    | .text value false =>
      match Text.splitAll ':' value with
      | [] => [part]
      | first :: others =>
        .text first false :: others.flatMap fun piece =>
          .text ":" false :: (state.homeParts? piece).getD [.text piece false]
    | _ => [part]

/-! ## Parameters and expressions -/

def failUnset {α : Type} (name : Text) : Action α := fail (name ++ ": parameter not set")

/-- The value of a parameter; empty if it has none, unless that is an error. -/
def valueOf (name : Text) : Action Text := do
  let state ← get
  match state.parameter? name with
  | some value => pure value
  | none =>
    if state.has 'u' && name != "@" && name != "*" then failUnset name else pure []

/-- The value of a parameter if it counts as one. -/
def State.presentValue? (state : State) (name : Text) (emptyToo : Bool) : Option Text :=
  (state.parameter? name).filter fun value => !(emptyToo && value.isEmpty)

/-- The glyphs of a parameter that has a value. Arguments stay apart where there may be several
`words`. -/
def State.valueGlyphs (state : State) (words quoted : Bool) (name value : Text) : List Glyph :=
  if name = "@" ∨ (name = "*" ∧ !quoted) then
    if words then Glyph.ofArguments quoted state.arguments else Glyph.ofValue quoted value
  else Glyph.ofValue quoted value

/-- The value of an arithmetic expression, whose assignments are done. -/
def evaluateArithmetic (text : Text) : Action Text := do
  let state ← get
  match Arithmetic.evaluate (fun name => (state.parameter? name).getD []) text with
  | .error (.noNumber value) => fail ("Illegal number: " ++ value)
  | .error (.malformed reason) =>
    fail ("arithmetic expression: " ++ reason ++ ": \"" ++ text ++ "\"")
  | .ok (value, assigned) =>
    let shown (number : Int) : Text :=
      (if number < 0 then ['-'] else []) ++ Text.ofNat number.natAbs
    for (name, number) in assigned do
      assign name (shown number)
    pure (shown value)

/-- The output of a script as text, without line ends at its end. -/
def substitutedText (output : Bytes) : Text :=
  Text.dropRightWhile (· == '\n') (Bytes.loose (output.filter (· != 0)))

mutual

/-- The glyphs of the parts of a word, given how scripts are run. In `words` there may be several
ones, and what is not quoted separates them if `loose`. -/
def expandParts (run : Script → Action Bytes) (words loose : Bool) :
    List WordPart → Action (List Glyph)
  | [] => pure []
  | part :: parts => do
    let first ← expandPart run words loose part
    return first ++ (← expandParts run words loose parts)

/-- The glyphs of a part of a word. -/
def expandPart (run : Script → Action Bytes) (words loose : Bool) :
    WordPart → Action (List Glyph)
  | .text value quoted => pure (Glyph.ofText quoted (loose && !quoted) value)
  | .quotes => pure [.quotes]
  | .parameter name use quoted => expandUse run words name quoted use
  | .command body quoted => do
    return Glyph.ofValue quoted (substitutedText (← run body))
  | .arithmetic expression quoted => do
    let glyphs ← expandParts run false false expression
    return Glyph.ofValue quoted (← evaluateArithmetic (markedText glyphs).plain)

/-- The glyphs of what is made of the value of a parameter. -/
def expandUse (run : Script → Action Bytes) (words : Bool) (name : Text) (quoted : Bool) :
    ParameterUse → Action (List Glyph)
  | .value => do
    let value ← valueOf name
    return (← get).valueGlyphs words quoted name value
  | .length => do
    return Glyph.ofValue quoted (Text.ofNat (Text.bytes (← valueOf name)).length)
  | .fallback emptyToo word => do
    match (← get).presentValue? name emptyToo with
    | some value => return (← get).valueGlyphs words quoted name value
    | none => expandParts run words true word
  | .assign emptyToo word => do
    match (← get).presentValue? name emptyToo with
    | some value => return (← get).valueGlyphs words quoted name value
    | none =>
      let glyphs ← expandParts run false true word
      if !isName name then fail (name ++ ": bad variable name")
      assign name (markedText glyphs).plain
      return Glyph.ofValue quoted (markedText glyphs).plain
  | .demand emptyToo word => do
    match (← get).presentValue? name emptyToo with
    | some value => return (← get).valueGlyphs words quoted name value
    | none =>
      let glyphs ← expandParts run false true word
      let reason : Text :=
        if word.isEmpty then
          if emptyToo then "parameter not set or null" else "parameter not set"
        else (markedText glyphs).plain
      fail (name ++ ": " ++ reason)
  | .replace emptyToo word => do
    match (← get).presentValue? name emptyToo with
    | some _ => expandParts run words true word
    | none => pure []
  | .without atEnd longest pattern => do
    let value ← valueOf name
    let glyphs ← expandParts run false false pattern
    return Glyph.ofValue quoted ((Pattern.read (markedText glyphs)).remove atEnd longest value)
  | .unreadable => fail "Bad substitution"

end

/-- The text of a word that is not split. -/
def expandWhole (run : Script → Action Bytes) (word : Word) : Action MarkedText := do
  return markedText (← expandParts run false false ((← get).expandHome word))

def expandWord (run : Script → Action Bytes) (word : Word) : Action (List Text) := do
  let glyphs ← expandParts run true false ((← get).expandHome word)
  let state ← get
  return (splitWords state.separators glyphs).flatMap state.matchPaths

def expandWords (run : Script → Action Bytes) : List Word → Action (List Text)
  | [] => pure []
  | word :: others => do
    let first ← expandWord run word
    return first ++ (← expandWords run others)

/-- The value that a word gives to a variable. -/
def expandValue (run : Script → Action Bytes) (word : Word) : Action Text := do
  let state ← get
  let glyphs ← expandParts run false false (state.expandHomes (state.expandHome word))
  return (markedText glyphs).plain

/-- The words that the words of an assignment command stand for: an assignment is not split. -/
def expandDeclaration (run : Script → Action Bytes) (word : Word) : Action (List Text) := do
  match assignment? word with
  | some (name, value) => return [name ++ "=" ++ (← expandValue run value)]
  | none => expandWord run word

end CompiledViews.Shell
