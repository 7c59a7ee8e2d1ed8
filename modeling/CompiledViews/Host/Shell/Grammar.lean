import CompiledViews.Host.Shell.Script

/-!
# The grammar of scripts

Tokens are read as commands. Words such as `if` build commands only where a command may begin or go
on, and line ends are skipped only where a command may begin.
-/

namespace CompiledViews.Shell

abbrev TokenReader := StateT (List Token) (Except SyntaxError)

namespace TokenReader

def peek : TokenReader Token := do
  match ← get with
  | token :: _ =>
    match token.kind with
    | .bad reason => throw ⟨token.line, reason⟩
    | _ => pure token
  | [] => pure ⟨.finish, 1⟩

/-- Leaves the next token behind. -/
def advance : TokenReader Unit := modify List.tail

/-- The next token that is no line end. -/
def peekPastLines : TokenReader Token := do
  modify (List.dropWhile (·.kind.isSymbol "\n"))
  peek

def unexpected {α : Type} (token : Token) : TokenReader α :=
  throw ⟨token.line, token.kind.shown ++ " unexpected"⟩

/-- Complains of a token in the place of another one. -/
def expected {α : Type} (token : Token) (wanted : Text) : TokenReader α :=
  throw ⟨token.line, token.kind.shown ++ " unexpected (expecting " ++ wanted ++ ")"⟩

/-- Leaves a word that builds commands behind. -/
def expectKeyword (name : Text) : TokenReader Unit := do
  let token ← peekPastLines
  if token.kind.isKeyword name then advance else expected token ("\"" ++ name ++ "\"")

/-- Leaves a symbol behind. -/
def expectSymbol (name : Text) : TokenReader Unit := do
  let token ← peek
  if token.kind.isSymbol name then advance else expected token ("\"" ++ name ++ "\"")

end TokenReader

open TokenReader

/-- Where a list of commands may end: at the end of a line, before a token that closes it but not at
once, or before such a token. -/
inductive ListKind where
  | line
  | required
  | optional
deriving DecidableEq, Repr

/-- Whether a token closes a list of commands. -/
def TokenKind.closesList (kind : TokenKind) : Bool :=
  kind.isSymbol ")" || kind.isSymbol ";;" ||
    match kind.keyword? with
    | some keyword =>
      (["do", "done", "elif", "else", "esac", "fi", "then", "\x7d"] : List Text).contains keyword
    | none => false

/-- One script after another one. -/
def Script.followedBy (first second : Script) : Script :=
  match first with
  | .nothing => second
  | _ => .next first second

/-- The name of a variable and its new value, if a word is an assignment. -/
def assignment? (word : Word) : Option (Text × Word) :=
  match word with
  | .text value false :: rest =>
    match Text.splitOnce "=" value with
    | some (name, start) =>
      if isName name then some (name, if start = [] then rest else .text start false :: rest)
      else none
    | none => none
  | _ => none

/-- The redirection that a sign and the word after it make. -/
def redirection (descriptor : Option Nat) (sign : Text) (target : Word) : Redirection :=
  match Text.toString sign with
  | ">&" => .duplicate (descriptor.getD 1) target
  | "<&" => .duplicate (descriptor.getD 0) target
  | ">>" => .file (descriptor.getD 1) .append target
  | ">|" => .file (descriptor.getD 1) .replace target
  | "<" => .file (descriptor.getD 0) .read target
  | "<>" => .file (descriptor.getD 0) .readWrite target
  | _ => .file (descriptor.getD 1) .write target

/-- The redirection at the next token, if there is one. -/
def readRedirection? : TokenReader (Option Redirection) := do
  let token ← peek
  match token.kind with
  | .redirection descriptor sign =>
    advance
    let target ← peek
    match target.kind with
    | .word word =>
      advance
      pure (some (redirection descriptor sign word))
    | _ => unexpected target
  | .document descriptor body =>
    advance
    pure (some (.document (descriptor.getD 0) body))
  | _ => pure none

def readRedirections : (limit : Nat) → TokenReader (List Redirection)
  | 0 => pure []
  | limit + 1 => do
    match ← readRedirection? with
    | some redirection => return redirection :: (← readRedirections limit)
    | none => pure []

def redirect (line : Nat) (body : Script) (redirections : List Redirection) : Script :=
  match redirections with
  | [] => body
  | _ => .redirected line body redirections

def readWords : (limit : Nat) → TokenReader (List Word)
  | 0 => pure []
  | limit + 1 => do
    match (← peek).kind with
    | .word word =>
      advance
      return word :: (← readWords limit)
    | _ => pure []

/-- The patterns of a clause, up to the parenthesis after them. -/
def readPatterns : (limit : Nat) → TokenReader (List Word)
  | 0 => pure []
  | limit + 1 => do
    let pattern : Word :=
      match (← peek).kind with
      | .word word => word
      | _ => []
    advance
    if (← peek).kind.isSymbol "|" then
      advance
      return pattern :: (← readPatterns limit)
    else
      expectSymbol ")"
      pure [pattern]

/-- The commands of a shell that no function may be named like. -/
def specialBuiltins : List Text :=
  [".", ":", "break", "continue", "eval", "exec", "exit", "export", "readonly", "return", "set",
    "shift", "times", "trap", "unset"]

/-- The parts of a simple command that have been read: its assignments, words and redirections. -/
structure SimpleParts where
  assignments : List (Text × Word)
  words : List Word
  redirections : List Redirection

/-- The parts of a simple command from the next token on, after those that have been read. -/
def readParts : (limit : Nat) → SimpleParts → TokenReader SimpleParts
  | 0, parts => pure parts
  | limit + 1, parts => do
    match (← peek).kind with
    | .word word =>
      advance
      match if parts.words.isEmpty then assignment? word else none with
      | some assignment =>
        readParts limit { parts with assignments := parts.assignments ++ [assignment] }
      | none => readParts limit { parts with words := parts.words ++ [word] }
    | _ =>
      match ← readRedirection? with
      | some redirection =>
        readParts limit { parts with redirections := parts.redirections ++ [redirection] }
      | none => pure parts

mutual

def readList : (limit : Nat) → ListKind → TokenReader Script
  | 0, _ => pure .nothing
  | limit + 1, kind => readItems limit kind (kind == .optional) .nothing

/-- A list of commands after others, which may end at once if `endable`. -/
def readItems : (limit : Nat) → ListKind → (endable : Bool) → Script → TokenReader Script
  | 0, _, _, before => pure before
  | limit + 1, kind, endable, before => do
    let token ← if kind = .line then peek else peekPastLines
    if kind = .line ∧ token.kind.isSymbol "\n" then
      advance
      pure before
    else
      match token.kind with
      | .finish => pure before
      | _ =>
        if endable && token.kind.closesList then pure before
        else
          let item ← readChain limit
          let after ← peek
          let goesOn := kind != .line
          if after.kind.isSymbol "&" then
            advance
            readItems limit kind goesOn (before.followedBy (.background item))
          else if after.kind.isSymbol ";" then
            advance
            readItems limit kind goesOn (before.followedBy item)
          else if after.kind.isSymbol "\n" then
            readItems limit kind goesOn (before.followedBy item)
          else
            match after.kind, kind with
            | .finish, _ => pure (before.followedBy item)
            | _, .line => unexpected after
            | _, _ => pure (before.followedBy item)

/-- Pipes joined by `&&` and `||`. -/
def readChain : (limit : Nat) → TokenReader Script
  | 0 => pure .nothing
  | limit + 1 => do readChainAfter limit (← readPipe limit)

/-- What is joined to a script by `&&` and `||`. -/
def readChainAfter : (limit : Nat) → Script → TokenReader Script
  | 0, first => pure first
  | limit + 1, first => do
    let token ← peek
    if token.kind.isSymbol "&&" then
      advance
      let _ ← peekPastLines
      readChainAfter limit (.both first (← readPipe limit))
    else if token.kind.isSymbol "||" then
      advance
      let _ ← peekPastLines
      readChainAfter limit (.either first (← readPipe limit))
    else pure first

/-- Commands joined by pipes. -/
def readPipe : (limit : Nat) → TokenReader Script
  | 0 => pure .nothing
  | limit + 1 => do
    if (← peek).kind.isKeyword "!" then
      advance
      return .negated (← readStages limit)
    else readStages limit

/-- Commands joined by pipes, of which the first one is not negated. -/
def readStages : (limit : Nat) → TokenReader Script
  | 0 => pure .nothing
  | limit + 1 => do
    let first ← readCommand limit
    match ← readStagesAfter limit with
    | [] => pure first
    | others => pure (.pipe (first :: others))

/-- The commands that a pipe leads to. -/
def readStagesAfter : (limit : Nat) → TokenReader (List Script)
  | 0 => pure []
  | limit + 1 => do
    if (← peek).kind.isSymbol "|" then
      advance
      let _ ← peekPastLines
      let stage ← readCommand limit
      return stage :: (← readStagesAfter limit)
    else pure []

def readCommand : (limit : Nat) → TokenReader Script
  | 0 => pure .nothing
  | limit + 1 => do
    let token ← peek
    match (token.kind.keyword?.map Text.toString : Option String) with
    | some "if" =>
      advance
      let body ← readBranch limit
      return redirect token.line body (← readRedirections limit)
    | some "while" =>
      advance
      readLoop limit token.line true
    | some "until" =>
      advance
      readLoop limit token.line false
    | some "for" =>
      advance
      readEach limit token.line
    | some "case" =>
      advance
      readChoice limit token.line
    | some "\x7b" =>
      advance
      let body ← readList limit .required
      expectKeyword "\x7d"
      return redirect token.line body (← readRedirections limit)
    | some _ => unexpected token
    | none =>
      match token.kind with
      | .symbol ['('] =>
        advance
        let body ← readList limit .required
        expectSymbol ")"
        return .subshell token.line body (← readRedirections limit)
      | .word _ | .redirection .. | .document .. => readSimple limit token.line
      | _ => unexpected token

/-- A simple command, or the definition of a function. -/
def readSimple : (limit : Nat) → (line : Nat) → TokenReader Script
  | 0, _ => pure .nothing
  | limit + 1, line => do
    let parts ← readParts limit ⟨[], [], []⟩
    match (← peek).kind, parts with
    | .symbol ['('], ⟨[], [word], []⟩ =>
      advance
      let close ← peek
      if close.kind.isSymbol ")" then advance else expected close "\")\""
      match word.bare? with
      | some name =>
        if isName name && !specialBuiltins.contains name then
          let _ ← peekPastLines
          return .define name (← readCommand limit)
        else throw ⟨close.line, "Bad function name"⟩
      | none => throw ⟨close.line, "Bad function name"⟩
    | _, _ => pure (.simple line parts.assignments parts.words parts.redirections)

/-- What follows `if` or `elif`, up to `fi`. -/
def readBranch : (limit : Nat) → TokenReader Script
  | 0 => pure .nothing
  | limit + 1 => do
    let condition ← readList limit .required
    expectKeyword "then"
    let body ← readList limit .required
    let token ← peek
    if token.kind.isKeyword "elif" then
      advance
      return .branch condition body (← readBranch limit)
    else if token.kind.isKeyword "else" then
      advance
      let otherwise ← readList limit .required
      expectKeyword "fi"
      return .branch condition body otherwise
    else
      expectKeyword "fi"
      return .branch condition body .nothing

/-- What follows `while` or `until`. -/
def readLoop : (limit : Nat) → (line : Nat) → (wanted : Bool) → TokenReader Script
  | 0, _, _ => pure .nothing
  | limit + 1, line, wanted => do
    let condition ← readList limit .required
    expectKeyword "do"
    let body ← readList limit .required
    expectKeyword "done"
    return redirect line (.loop wanted condition body) (← readRedirections limit)

def readEach : (limit : Nat) → (line : Nat) → TokenReader Script
  | 0, _ => pure .nothing
  | limit + 1, line => do
    let token ← peek
    match token.kind.bare?.filter isName with
    | none => throw ⟨token.line, "Bad for loop variable"⟩
    | some name =>
      advance
      let next ← peekPastLines
      let words : List Word ←
        if next.kind.isKeyword "in" then do
          advance
          let words ← readWords limit
          let close ← peek
          if close.kind.isSymbol ";" || close.kind.isSymbol "\n" then advance
          else unexpected close
          pure words
        else do
          if next.kind.isSymbol ";" then advance
          pure [[.parameter ['@'] .value true]]
      expectKeyword "do"
      let body ← readList limit .required
      expectKeyword "done"
      return redirect line (.each line name words body) (← readRedirections limit)

/-- What follows `case`. -/
def readChoice : (limit : Nat) → (line : Nat) → TokenReader Script
  | 0, _ => pure .nothing
  | limit + 1, line => do
    let token ← peek
    match token.kind with
    | .word subject =>
      advance
      expectKeyword "in"
      let clauses ← readClauses limit
      return redirect line (.choice line subject clauses) (← readRedirections limit)
    | _ => expected token "word"

/-- The clauses of a choice, up to `esac`. -/
def readClauses : (limit : Nat) → TokenReader (List (List Word × Script))
  | 0 => pure []
  | limit + 1 => do
    let token ← peekPastLines
    if token.kind.isKeyword "esac" then
      advance
      pure []
    else
      if token.kind.isSymbol "(" then advance
      let patterns ← readPatterns limit
      let body ← readList limit .optional
      let close ← peekPastLines
      if close.kind.isKeyword "esac" then
        advance
        return [(patterns, body)]
      else if close.kind.isSymbol ";;" then
        advance
        return (patterns, body) :: (← readClauses limit)
      else expected close "\";;\""

end

/-- A bound for the steps that it takes to read tokens. -/
def parseLimit (tokens : List Token) : Nat := 10 * tokens.length + 20

/-- The script of tokens that end with a closing parenthesis. -/
def Script.inParentheses (tokens : List Token) : Except SyntaxError Script := do
  let (script, _) ← (do
    let script ← readList (parseLimit tokens) .optional
    let _ ← peekPastLines
    expectSymbol ")"
    pure script : TokenReader Script).run tokens
  pure script

def Script.inBackquotes (tokens : List Token) : Except SyntaxError Script :=
  (readList (parseLimit tokens) .optional |>.run tokens).map (·.1)

/-- The scripts of the lines of a script, each with what it goes on to, and why no more can be
read. -/
def readLines : (limit : Nat) → List Token → List Script × Option SyntaxError
  | 0, _ => ([], none)
  | limit + 1, tokens =>
    match (readList (parseLimit tokens) .line).run tokens with
    | .error reason => ([], some reason)
    | .ok (script, rest) =>
      match rest with
      | [] => ([script], none)
      | ⟨.finish, _⟩ :: _ => ([script], none)
      | _ =>
        let (scripts, reason) := readLines limit rest
        (script :: scripts, reason)

end CompiledViews.Shell
