import CompiledViews.Host.Shell.Grammar

/-!
# Scanning scripts

A script as text is cut into tokens. What stands between the parentheses of `$(…)` is a script of
its own, so it is scanned and read where it is met.
-/

namespace CompiledViews.Shell

/-- What is left of a script, and the number of the line that it begins on. -/
structure ScriptText where
  rest : Text
  line : Nat

/-- A reader of the text of a script. -/
abbrev Scanner := StateT ScriptText (Except SyntaxError)

/-- Where parts of a word stand, which decides what ends them and what quotes: in a word, in braces,
in double quotes, in braces within these, in a text that follows a line, or in an arithmetic
expression with a number of open parentheses. In a `word` that is no mark, values are put in. -/
inductive WordContext where
  | word (isMark : Bool)
  | braces
  | quotes
  | quotedBraces
  | document
  | arithmetic (depth : Nat)
deriving DecidableEq, Repr

namespace WordContext

/-- Whether a context counts as double quotes. -/
def isQuoted : WordContext → Bool
  | word _ | braces => false
  | _ => true

/-- Whether characters that are special elsewhere end the parts. -/
def isWord : WordContext → Bool
  | word _ => true
  | _ => false

/-- Whether a backslash quotes a character. -/
def escapes (context : WordContext) (character : Char) : Bool :=
  !context.isQuoted || ("\\\x60$" : Text).contains character ||
    (character == '"' && context != document) || (character == '\x7d' && context == quotedBraces)

end WordContext

/-- A text that is to follow the line: the line that ends it, whether tabs at the beginning of its
lines are dropped, and whether it is quoted. -/
structure PendingDocument where
  mark : Text
  stripped : Bool
  quoted : Bool

namespace Scanner

/-- Complains at the current line. -/
def complain {α : Type} (reason : Text) : Scanner α := do throw ⟨(← get).line, reason⟩

/-- Complains at the last line of the text. -/
def complainAtEnd {α : Type} (reason : Text) : Scanner α := do
  let script ← get
  throw ⟨script.line + script.rest.count '\n', reason⟩

/-- Leaves a text behind, given what follows it. -/
def leave (passed rest : Text) : Scanner Unit :=
  modify fun script => ⟨rest, script.line + passed.count '\n'⟩

/-- Leaves a number of characters behind. -/
def skip (count : Nat) : Scanner Unit := do
  let script ← get
  leave (script.rest.take count) (script.rest.drop count)

/-- Leaves the end of a line behind that is not counted. -/
def skipUncounted : Scanner Unit :=
  modify fun script =>
    match script.rest with
    | '\n' :: rest => ⟨rest, script.line⟩
    | _ => script

/-- The characters from here on that a test holds of, which are left behind. -/
def takeWhile (test : Char → Bool) : Scanner Text := do
  let script ← get
  let taken := script.rest.takeWhile test
  leave taken (script.rest.drop taken.length)
  pure taken

/-- The result of reading, or its complaint. -/
def lift {α : Type} (result : Except SyntaxError α) : Scanner α :=
  match result with
  | .ok value => pure value
  | .error reason => throw reason

end Scanner

open Scanner

/-- Whether a character ends a word that it is not quoted in. -/
def endsWord (character : Char) : Bool := (" \t\n;&|()<>" : Text).contains character

/-- Whether parts of a word are all arguments in double quotes and nothing else. -/
def isArguments : Word → Bool
  | [.parameter ['@'] .value _] => true
  | _ => false

/-- The text between backquotes, in which a backslash quotes some characters, and what follows. -/
def untilBackquote (quoted : Bool) : Text → Option (Text × Text)
  | [] => none
  | '\x60' :: rest => some ([], rest)
  | '\\' :: '\n' :: rest => untilBackquote quoted rest
  | '\\' :: character :: rest =>
    (untilBackquote quoted rest).map fun (inside, after) =>
      if ("$\x60\\" : Text).contains character || (quoted && character == '"') then
        (character :: inside, after)
      else ('\\' :: character :: inside, after)
  | character :: rest =>
    (untilBackquote quoted rest).map fun (inside, after) => (character :: inside, after)

/-- The sign of a redirection at the beginning of a text. -/
def signOf? (text : Text) : Option Text :=
  (["<<-", "<<", "<&", "<>", "<", ">>", ">&", ">|", ">"] : List Text).find? (Text.startsWith text)

/-- The symbol at the beginning of a text. -/
def symbolOf? (text : Text) : Option Text :=
  (["&&", "||", ";;", ";", "&", "|", "(", ")", "\n"] : List Text).find? (Text.startsWith text)

/-- The lines of a text up to one that is a given mark, and what follows that. -/
def documentLines (document : PendingDocument) : (limit : Nat) → Text → Text × Text
  | 0, text => ([], text)
  | _, [] => ([], [])
  | limit + 1, text =>
    let line := text.takeWhile (· != '\n')
    let rest := text.drop (line.length + 1)
    let kept := if document.stripped then line.dropWhile (· == '\t') else line
    if kept = document.mark then ([], rest)
    else if line.length = text.length then (kept, [])
    else
      let (others, after) := documentLines document limit rest
      (kept ++ '\n' :: others, after)

/-- What is open while tokens are scanned: parentheses, or a choice, whose patterns end with a
parenthesis that closes nothing. -/
inductive Opening where
  | parenthesis
  | choice
deriving DecidableEq, Repr

/-- Where the scanning of tokens is: what is open, whether a command may begin here, and the texts
that are to follow the line. -/
structure TokenPlace where
  openings : List Opening
  commandMayBegin : Bool
  pending : List PendingDocument

namespace TokenPlace

/-- The place after a word. -/
def afterWord (place : TokenPlace) (word : Word) : TokenPlace :=
  let plainPlace := { place with commandMayBegin := false }
  match (word.bare?.map Text.toString : Option String), place.openings with
  | some "in", .choice :: _ => { place with commandMayBegin := true }
  | some "case", _ =>
    if place.commandMayBegin then
      { plainPlace with openings := .choice :: place.openings }
    else plainPlace
  | some "esac", .choice :: others =>
    if place.commandMayBegin then { plainPlace with openings := others } else plainPlace
  | some "if", _ | some "then", _ | some "elif", _ | some "else", _ | some "while", _
  | some "until", _ | some "do", _ | some "\x7b", _ | some "!", _ => place
  | _, _ => plainPlace

def afterSymbol (place : TokenPlace) (symbol : Text) : TokenPlace :=
  let next := { place with commandMayBegin := true }
  match (Text.toString symbol : String), place.openings with
  | "(", openings => { next with openings := .parenthesis :: openings }
  | ")", .parenthesis :: others => { next with openings := others }
  | _, _ => next

end TokenPlace

mutual

/-- The parts of a word in a context. What ends them is left behind, unless it ends a word. -/
def scanParts : (limit : Nat) → WordContext → Scanner Word
  | 0, _ => complain "too long"
  | limit + 1, context => do
    let plain (count : Nat) (character : Char) (quoted : Bool) : Scanner Word := do
      skip count
      return WordPart.prepend character quoted (← scanParts limit context)
    match (← get).rest, context with
    | [], .word _ | [], .document => pure []
    | [], .quotes | [], .quotedBraces => complain "Unterminated quoted string"
    | [], .arithmetic _ => complain "Missing \x27))\x27"
    | [], _ => complain "Missing \x27\x7d\x27"
    | '\\' :: '\n' :: _, _ =>
      skip 2
      scanParts limit context
    | ['\\'], _ => plain 1 '\\' true
    | '\\' :: character :: _, _ =>
      if context.escapes character then plain 2 character true
      else
        skip 2
        return WordPart.prepend '\\' true
          (WordPart.prepend character true (← scanParts limit context))
    | '\x27' :: rest, _ =>
      if context.isQuoted then plain 1 '\x27' true
      else
        match Text.splitOnce ['\x27'] rest with
        | none => complainAtEnd "Unterminated quoted string"
        | some (value, after) =>
          leave value after
          return .quotes :: .text value true :: (← scanParts limit context)
    | '"' :: _, .quotes =>
      skip 1
      pure []
    | '"' :: _, .document | '"' :: _, .arithmetic _ => plain 1 '"' true
    | '"' :: _, _ =>
      skip 1
      if context = .quotedBraces then
        let inside ← scanParts limit .quotes
        return inside ++ (← scanParts limit context)
      else
        let inside ← scanParts limit .quotes
        let others ← scanParts limit context
        return (if isArguments inside then inside else .quotes :: inside) ++ others
    | '\x7d' :: _, .braces | '\x7d' :: _, .quotedBraces =>
      skip 1
      pure []
    | '$' :: _, _ =>
      if context = .word true then plain 1 '$' false
      else
        skip 1
        let part ← scanDollar limit context.isQuoted
        return part :: (← scanParts limit context)
    | '\x60' :: rest, _ =>
      if context = .word true then plain 1 '\x60' false
      else
        match untilBackquote context.isQuoted rest with
        | none => complainAtEnd "EOF in backquote substitution"
        | some (inside, after) =>
          let line := (← get).line
          let ((tokens, _), _) ← lift
            ((scanTokens limit false ⟨[], true, []⟩).run ⟨inside, line⟩)
          let script ← lift (Script.inBackquotes tokens)
          leave inside after
          return .command script context.isQuoted :: (← scanParts limit context)
    | '(' :: _, .arithmetic depth =>
      skip 1
      return WordPart.prepend '(' true (← scanParts limit (.arithmetic (depth + 1)))
    | ')' :: _, .arithmetic (depth + 1) =>
      skip 1
      return WordPart.prepend ')' true (← scanParts limit (.arithmetic depth))
    | ')' :: ')' :: _, .arithmetic 0 =>
      skip 2
      pure []
    | character :: _, _ =>
      if context.isWord && endsWord character then pure []
      else plain 1 character context.isQuoted

/-- What a dollar sign stands for that has been left behind. -/
def scanDollar : (limit : Nat) → (quoted : Bool) → Scanner WordPart
  | 0, _ => complain "too long"
  | limit + 1, quoted => do
    match (← get).rest with
    | '(' :: '(' :: _ =>
      skip 2
      return .arithmetic (← scanParts limit (.arithmetic 0)) quoted
    | '(' :: _ =>
      skip 1
      let (tokens, _) ← scanTokens limit true ⟨[], true, []⟩
      return .command (← lift (Script.inParentheses tokens)) quoted
    | '\x7b' :: _ =>
      skip 1
      scanBraces limit quoted
    | character :: _ =>
      if isNameStart character then
        return .parameter (← takeWhile isNameChar) .value quoted
      else if isSpecialName character then
        skip 1
        return .parameter [character] .value quoted
      else return .text "$" quoted
    | [] => return .text "$" quoted

/-- What stands in braces after a dollar sign, both left behind. -/
def scanBraces : (limit : Nat) → (quoted : Bool) → Scanner WordPart
  | 0, _ => complain "too long"
  | limit + 1, quoted => do
    let unreadable (name : Text) : Scanner WordPart := do
      skipUncounted
      let _ ← scanParts limit .braces
      return .parameter name .unreadable quoted
    let lengthOf (name : Text) : Scanner WordPart := do
      match (← get).rest with
      | '\x7d' :: _ =>
        skip 1
        return .parameter name .length quoted
      | _ => unreadable name
    match (← get).rest with
    | '#' :: start :: after =>
      skip 1
      if isNameStart start then lengthOf (← takeWhile isNameChar)
      else if start.isDigit then lengthOf (← takeWhile Char.isDigit)
      else if isSpecialName start && after.head? == some '\x7d' then
        skip 1
        lengthOf [start]
      else scanUse limit "#" quoted
    | start :: _ =>
      if isNameStart start then scanUse limit (← takeWhile isNameChar) quoted
      else if start.isDigit then scanUse limit (← takeWhile Char.isDigit) quoted
      else if isSpecialName start then
        skip 1
        scanUse limit [start] quoted
      else unreadable [start]
    | [] => unreadable []

/-- What is made of the value of a parameter, whose name has been left behind. -/
def scanUse : (limit : Nat) → (name : Text) → (quoted : Bool) → Scanner WordPart
  | 0, _, _ => complain "too long"
  | limit + 1, name, quoted => do
    let context : WordContext := if quoted then .quotedBraces else .braces
    let withWord (count : Nat) (emptyToo : Bool) (use : Bool → Word → ParameterUse) :
        Scanner WordPart := do
      skip count
      return .parameter name (use emptyToo (← scanParts limit context)) quoted
    let withPattern (count : Nat) (atEnd longest : Bool) : Scanner WordPart := do
      skip count
      return .parameter name (.without atEnd longest (← scanParts limit .braces)) quoted
    match (← get).rest with
    | '\x7d' :: _ =>
      skip 1
      return .parameter name .value quoted
    | ':' :: '-' :: _ => withWord 2 true .fallback
    | ':' :: '=' :: _ => withWord 2 true .assign
    | ':' :: '?' :: _ => withWord 2 true .demand
    | ':' :: '+' :: _ => withWord 2 true .replace
    | '-' :: _ => withWord 1 false .fallback
    | '=' :: _ => withWord 1 false .assign
    | '?' :: _ => withWord 1 false .demand
    | '+' :: _ => withWord 1 false .replace
    | '%' :: '%' :: _ => withPattern 2 true true
    | '%' :: _ => withPattern 1 true false
    | '#' :: '#' :: _ => withPattern 2 false true
    | '#' :: _ => withPattern 1 false false
    | _ =>
      skipUncounted
      let _ ← scanParts limit context
      return .parameter name .unreadable quoted

/-- The tokens from here on, and the texts that were to follow the line. They end at the end of the
text, or with the parenthesis that closes them if they are `nested`. -/
def scanTokens : (limit : Nat) → (nested : Bool) → TokenPlace →
    Scanner (List Token × List Word)
  | 0, _, _ => complain "too long"
  | limit + 1, nested, place => do
    let _ ← takeWhile fun character => character == ' ' || character == '\t'
    let script ← get
    let pushed (kind : TokenKind) (next : TokenPlace) : Scanner (List Token × List Word) := do
      let line := (← get).line
      let (tokens, documents) ← scanTokens limit nested next
      return (⟨kind, line⟩ :: tokens, documents)
    let redirected (descriptor : Option Nat) (sign : Text) :
        Scanner (List Token × List Word) := do
      skip sign.length
      let _ ← takeWhile fun character => character == ' ' || character == '\t'
      if (sign = "<<" ∨ sign = "<<-") ∧ (← get).rest.head?.any (!endsWord ·) then
        let mark ← scanParts limit (.word true)
        let line := (← get).line
        let document : PendingDocument := ⟨mark.plain, sign == "<<-", mark.isQuoted⟩
        let (tokens, documents) ← scanTokens limit nested
          { place with pending := place.pending ++ [document] }
        let body := documents.getD place.pending.length []
        return (⟨.document descriptor body, line⟩ :: tokens, documents.take place.pending.length)
      else pushed (.redirection descriptor sign) place
    match script.rest with
    | [] => return ([⟨.finish, script.line⟩], place.pending.map fun _ => [])
    | '#' :: _ =>
      let _ ← takeWhile (· != '\n')
      scanTokens limit nested place
    | '\\' :: '\n' :: _ =>
      skip 2
      scanTokens limit nested place
    | '\n' :: _ =>
      skip 1
      let line := (← get).line
      let documents ← scanDocuments limit place.pending
      let (tokens, _) ← scanTokens limit nested
        ({ place with pending := [] }.afterSymbol "\n")
      return (⟨.lineEnd, line⟩ :: tokens, documents)
    | first :: rest =>
      match if first.isDigit then signOf? rest else none, signOf? script.rest,
        symbolOf? script.rest with
      | some sign, _, _ =>
        skip 1
        redirected (some (first.toNat - 0x30)) sign
      | none, some sign, _ => redirected none sign
      | none, none, some symbol =>
        skip symbol.length
        if nested && symbol == ")" && place.openings.isEmpty then
          return ([⟨.symbol symbol, script.line⟩, ⟨.finish, script.line⟩],
            place.pending.map fun _ => [])
        else pushed (.symbol symbol) (place.afterSymbol symbol)
      | none, none, none =>
        match (scanParts limit (.word false)).run script with
        | .ok (word, after) =>
          set after
          pushed (.word word) (place.afterWord word)
        | .error reason =>
          if nested then throw reason
          else return ([⟨.bad reason.reason, reason.line⟩], place.pending.map fun _ => [])

/-- The texts that follow a line. -/
def scanDocuments : (limit : Nat) → List PendingDocument → Scanner (List Word)
  | 0, _ => complain "too long"
  | _, [] => pure []
  | limit + 1, document :: others => do
    let script ← get
    let (body, rest) := documentLines document (script.rest.length + 1) script.rest
    leave (script.rest.take (script.rest.length - rest.length)) rest
    let word : Word ←
      if document.quoted then pure [.text body true]
      else do
        let (word, _) ← lift ((scanParts limit .document).run ⟨body, script.line⟩)
        pure word
    return word :: (← scanDocuments limit others)

end

/-- The scripts of the lines of a text, in order, and why no more can be read. -/
def Script.readAll (text : Text) (line : Nat) : List Script × Option SyntaxError :=
  match (scanTokens (4 * text.length + 10) false ⟨[], true, []⟩).run ⟨text, line⟩ with
  | .ok ((tokens, _), _) => readLines (tokens.length + 1) tokens
  | .error reason => ([], some reason)

end CompiledViews.Shell
