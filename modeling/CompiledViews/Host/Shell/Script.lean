import CompiledViews.Text.Basic

/-!
# Shell scripts

Scripts as they are evaluated: commands with redirections, lists, pipes, loops, conditions and
functions. Words are made of parts, some of which stand for what they will be replaced by. What
can complain carries the number of its line.

Before that a script is cut into tokens: words, symbols and the signs of redirections, each with the
number of the line that it ends on.
-/

namespace CompiledViews.Shell

/-- How a file is opened; `replace` writes over one that is to be kept. -/
inductive OpenMode where
  | read
  | write
  | replace
  | append
  | readWrite
deriving DecidableEq, Repr

mutual

/-- A part of a word: text, a mark that something is quoted even if it is empty, the value of a
parameter, the output of a script, or the value of an arithmetic expression. What is not quoted is
split into words. -/
inductive WordPart where
  | text (value : Text) (quoted : Bool)
  | quotes
  | parameter (name : Text) (use : ParameterUse) (quoted : Bool)
  | command (body : Script) (quoted : Bool)
  | arithmetic (expression : List WordPart) (quoted : Bool)

/-- What is made of the value of a parameter: nothing else, its length, a word in its place if there
is no value, which may be assigned or complained of, or if there is one, or what is left without the
part that a pattern matches. An empty value counts as none if `emptyToo`. What is `unreadable`
cannot be done. -/
inductive ParameterUse where
  | value
  | length
  | fallback (emptyToo : Bool) (word : List WordPart)
  | assign (emptyToo : Bool) (word : List WordPart)
  | demand (emptyToo : Bool) (word : List WordPart)
  | replace (emptyToo : Bool) (word : List WordPart)
  | without (atEnd longest : Bool) (pattern : List WordPart)
  | unreadable

/-- What is done to a descriptor of a command: it is opened for a file, made the same as another
one or closed, or given a text to read. -/
inductive Redirection where
  | file (descriptor : Nat) (mode : OpenMode) (target : List WordPart)
  | duplicate (descriptor : Nat) (target : List WordPart)
  | document (descriptor : Nat) (text : List WordPart)

/-- A script. `loop wanted` goes on while its condition succeeds as `wanted`, and `choice` takes the
first clause of which a pattern matches the subject. -/
inductive Script where
  | nothing
  | simple (line : Nat) (assignments : List (Text × List WordPart))
      (words : List (List WordPart)) (redirections : List Redirection)
  | next (first second : Script)
  | both (first second : Script)
  | either (first second : Script)
  | negated (body : Script)
  | pipe (stages : List Script)
  | subshell (line : Nat) (body : Script) (redirections : List Redirection)
  | background (body : Script)
  | redirected (line : Nat) (body : Script) (redirections : List Redirection)
  | branch (condition body otherwise : Script)
  | choice (line : Nat) (subject : List WordPart)
      (clauses : List (List (List WordPart) × Script))
  | loop (wanted : Bool) (condition body : Script)
  | each (line : Nat) (name : Text) (words : List (List WordPart)) (body : Script)
  | define (name : Text) (body : Script)

end

/-- A word of a script. -/
abbrev Word := List WordPart

instance : Inhabited Script := ⟨.nothing⟩

namespace WordPart

/-- A character before the other parts of a word. -/
def prepend (character : Char) (quoted : Bool) (parts : Word) : Word :=
  match parts with
  | text value other :: rest =>
    if other = quoted then text (character :: value) quoted :: rest
    else text [character] quoted :: parts
  | _ => text [character] quoted :: parts

end WordPart

namespace Word

/-- The text of a word that has no quoted or replaced part. -/
def bare? (word : Word) : Option Text :=
  (word.mapM fun part =>
    match part with
    | WordPart.text value false => some value
    | _ => none).map List.flatten

/-- The text of a word that has no replaced part, whether it is quoted or not. -/
def plain (word : Word) : Text :=
  word.flatMap fun part =>
    match part with
    | .text value _ => value
    | _ => []

def isQuoted (word : Word) : Bool :=
  word.any fun part =>
    match part with
    | .text _ quoted => quoted
    | .quotes => true
    | _ => false

end Word

/-! ## Tokens -/


/-- What a token is: a word, a symbol, the sign of a redirection with the number before it, a text
that follows the line, the end of the script, or the reason why no more can be read. -/
inductive TokenKind where
  | word (word : Word)
  | symbol (name : Text)
  | redirection (descriptor : Option Nat) (sign : Text)
  | document (descriptor : Option Nat) (body : Word)
  | finish
  | bad (reason : Text)

/-- A token and its line. -/
structure Token where
  kind : TokenKind
  line : Nat

/-- Why a script cannot be read, and the line where that shows. -/
structure SyntaxError where
  line : Nat
  reason : Text
deriving DecidableEq, Repr

/-- The words that build commands. -/
def keywords : List Text :=
  ["!", "case", "do", "done", "elif", "else", "esac", "fi", "for", "if", "in", "then", "until",
    "while", "\x7b", "\x7d"]

namespace TokenKind

def lineEnd : TokenKind := symbol "\n"

/-- The word that a token is if nothing of it is quoted or replaced. -/
def bare? : TokenKind → Option Text
  | word value => value.bare?
  | _ => none

/-- The word that builds commands, if the token is one. -/
def keyword? (kind : TokenKind) : Option Text := kind.bare?.filter keywords.contains

def isSymbol (name : Text) : TokenKind → Bool
  | symbol other => other == name
  | _ => false

/-- Whether a token is a given word that builds commands. -/
def isKeyword (name : Text) (kind : TokenKind) : Bool := kind.keyword? == some name

/-- A token as complaints name it. -/
def shown (kind : TokenKind) : Text :=
  match kind with
  | word _ =>
    match kind.keyword? with
    | some keyword => "\"" ++ keyword ++ "\""
    | none => "word"
  | symbol ['\n'] => "newline"
  | symbol name => "\"" ++ name ++ "\""
  | redirection .. | document .. => "redirection"
  | finish => "end of file"
  | bad reason => reason

end TokenKind

/-- Whether a name may begin with a character. -/
def isNameStart (character : Char) : Bool := character.isAlpha || character == '_'

/-- Whether a name may hold a character. -/
def isNameChar (character : Char) : Bool := character.isAlphanum || character == '_'

def isName : Text → Bool
  | start :: rest => isNameStart start && rest.all isNameChar
  | [] => false

/-- Whether a character alone names a parameter. -/
def isSpecialName (character : Char) : Bool :=
  character.isDigit || ("?$#@*!-" : Text).contains character

end CompiledViews.Shell
