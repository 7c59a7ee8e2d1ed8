import CompiledViews.Host.Format.Numeral
import CompiledViews.FileTree.Action

/-!
# Conditions on words

Conditions on texts, numbers and files are given as words, joined by signs. A word that could be a
sign counts as a text where what follows shows that it is compared with something.
-/

namespace CompiledViews.Condition

/-- A sign in a condition. -/
inductive Sign where
  | unary (name : Text)
  | binary (name : Text)
  | negation
  | conjunction
  | disjunction
  | opening
  | closing
deriving DecidableEq, Repr

/-- The signs of conditions on one word. -/
def unarySigns : List Text :=
  ["-r", "-w", "-x", "-e", "-f", "-d", "-c", "-b", "-p", "-u", "-g", "-k", "-s", "-t", "-z", "-n",
    "-h", "-O", "-G", "-L", "-S"]

/-- The signs of conditions on two words. -/
def binarySigns : List Text :=
  ["=", "!=", "<", ">", "-eq", "-ne", "-ge", "-gt", "-le", "-lt", "-nt", "-ot", "-ef"]

def signOf? (word : Text) : Option Sign :=
  if unarySigns.contains word then some (.unary word)
  else if binarySigns.contains word then some (.binary word)
  else
    match Text.toString word with
    | "!" => some .negation
    | "-a" => some .conjunction
    | "-o" => some .disjunction
    | "(" => some .opening
    | ")" => some .closing
    | _ => none

/-- Whether a sign compares two words. -/
def isBinary : Option Sign → Bool
  | some (.binary _) => true
  | _ => false

/-- Why it cannot be told whether a condition holds. -/
inductive Problem where
  | noNumber (word : Text)
  | missingArgument (sign : Text)
  | unexpected (word : Text)
  | unclosed
  | unended
deriving DecidableEq, Repr

/-- The problem in words. -/
def Problem.message : Problem → Text
  | noNumber word => "Illegal number: " ++ word
  | missingArgument sign => sign ++ ": argument expected"
  | unexpected word => word ++ ": unexpected operator"
  | unclosed => "closing paren expected"
  | unended => "missing ]"

/-- What conditions are about: the files, which of them are programs, and which paths lead to
pipes. -/
structure Facts where
  files : FileTree
  programs : List (List Text)
  isPipe : Text → Bool

/-- The sign at the beginning of words, unless it is a text there. -/
def signAt? : List Text → Option Sign
  | [] => none
  | word :: others =>
    match signOf? word, others with
    | some (.unary _), [] => none
    | some (.unary name), [_] => some (.unary name)
    | some (.unary name), second :: _ =>
      if isBinary (signOf? second) then none else some (.unary name)
    | some .opening, [] => none
    | sign, _ => sign

/-- The whole number that a word is in decimal notation; blanks around it do not count. -/
def number (word : Text) : Except Problem Int :=
  let (isNegative, unsigned) := Host.Numeral.signed (word.dropWhile Host.Numeral.isSpace)
  let digits := unsigned.takeWhile Char.isDigit
  let value : Int := Host.Escape.spelled 10 digits
  if digits = [] ∨ !(unsigned.drop digits.length).all Host.Numeral.isSpace ∨
      9223372036854775807 < value then
    .error (.noNumber word)
  else .ok (if isNegative then -value else value)

/-- Whether a condition on two words holds. -/
def compare (facts : Facts) (sign left right : Text) : Except Problem Bool := do
  let places : Option (List Text × List Text) :=
    match facts.files.locate left, facts.files.locate right with
    | .ok first, .ok second => some (first, second)
    | _, _ => none
  match Text.toString sign with
  | "=" => pure (left == right)
  | "!=" => pure (left != right)
  | "<" => pure (left.toString < right.toString)
  | ">" => pure (right.toString < left.toString)
  | "-eq" => return (← number left) == (← number right)
  | "-ne" => return (← number left) != (← number right)
  | "-lt" => return (← number left) < (← number right)
  | "-le" => return (← number left) ≤ (← number right)
  | "-gt" => return (← number right) < (← number left)
  | "-ge" => return (← number right) ≤ (← number left)
  | "-ef" => pure (places.any fun (first, second) => first == second)
  | _ => pure false

/-- The paths of files that are no files of their own but devices. -/
def devices : List Text := ["/dev/null", "/dev/zero", "/dev/full", "/dev/random", "/dev/urandom"]

def examine (facts : Facts) (sign word : Text) : Except Problem Bool := do
  let isDevice := devices.contains word
  let isPipe := facts.isPipe word
  let node := facts.files.node? word
  let isThere := isDevice || isPipe || node.isSome
  let isLink := match facts.files.locateEntry word with
    | .ok (_, entries, name) =>
      match Node.findEntry name entries with
      | some (.link _) => true
      | _ => false
    | .error _ => false
  match Text.toString sign with
  | "-n" => pure (word != [])
  | "-z" => pure (word == [])
  | "-t" =>
    let _ ← number word
    pure false
  | "-e" | "-r" | "-w" | "-O" | "-G" => pure isThere
  | "-d" => pure (facts.files.isDirectory word)
  | "-f" => pure (!isDevice && !isPipe && (facts.files.readBytes word).toOption.isSome)
  | "-s" =>
    pure (facts.files.isDirectory word || (facts.files.readBytes word).toOption.any (· != []))
  | "-x" =>
    pure (facts.files.isDirectory word ||
      (facts.files.locate word).toOption.any facts.programs.contains)
  | "-h" | "-L" => pure isLink
  | "-c" => pure isDevice
  | "-p" => pure isPipe
  | _ => pure false

mutual

/-- Whether one of several conditions holds, and the words from the last one that was looked at
on. -/
def disjunction (facts : Facts) :
    (limit : Nat) → List Text → Except Problem (Bool × List Text)
  | 0, words => .ok (false, words)
  | limit + 1, words => do
    let (first, last) ← conjunction facts limit words
    match signAt? last.tail with
    | some .disjunction =>
      let (others, final) ← disjunction facts limit (last.drop 2)
      pure (first || others, final)
    | _ => pure (first, last)

/-- Whether all of several conditions hold. -/
def conjunction (facts : Facts) :
    (limit : Nat) → List Text → Except Problem (Bool × List Text)
  | 0, words => .ok (false, words)
  | limit + 1, words => do
    let (first, last) ← negation facts limit words
    match signAt? last.tail with
    | some .conjunction =>
      let (others, final) ← conjunction facts limit (last.drop 2)
      pure (first && others, final)
    | _ => pure (first, last)

/-- Whether a condition holds that may be negated. -/
def negation (facts : Facts) :
    (limit : Nat) → List Text → Except Problem (Bool × List Text)
  | 0, words => .ok (false, words)
  | limit + 1, words =>
    match signAt? words with
    | some .negation => do
      let next := if words.tail.isEmpty then words else words.tail
      let (holds, last) ←
        if words.tail.isEmpty then pure (false, next) else negation facts limit next
      pure (!holds, last)
    | _ => primary facts limit words (signAt? words)

/-- Whether a condition holds that is no joined one, unless it stands in parentheses, given the sign
that it begins with. -/
def primary (facts : Facts) :
    (limit : Nat) → List Text → Option Sign → Except Problem (Bool × List Text)
  | 0, words, _ => .ok (false, words)
  | limit + 1, words, sign =>
    match words, sign with
    | [], _ => pure (false, [])
    | _ :: inside, some .opening => do
      if signAt? inside = some .closing then pure (false, inside)
      else
        let (holds, last) ← disjunction facts limit inside
        if signAt? last.tail = some .closing then pure (holds, last.tail)
        else throw .unclosed
    | _ :: rest, some (.unary name) =>
      match rest with
      | word :: _ => do return (← examine facts name word, rest)
      | [] => throw (.missingArgument name)
    | word :: rest, _ =>
      match signAt? rest, rest with
      | some (.binary name), _ :: second :: others => do
        return (← compare facts name word second, second :: others)
      | some (.binary name), _ => throw (.missingArgument name)
      | _, _ => pure (word != [], words)

end

/-- Whether words that are no special case are a condition that holds. The first one is a text if
`compared`. -/
def holdsJoined (facts : Facts) (compared : Bool) (words : List Text) : Except Problem Bool := do
  let limit := 4 * words.length + 8
  let (result, last) ←
    if compared then primary facts limit words none else disjunction facts limit words
  match last with
  | word :: _ :: _ => throw (.unexpected word)
  | _ => pure result

/-- Whether words are a condition that holds. Up to four words, their number decides what they
mean. -/
def holds (facts : Facts) : (limit : Nat) → List Text → Except Problem Bool
  | 0, _ => .ok false
  | _, [] => .ok false
  | limit + 1, words =>
    let isCompared := words.length = 3 ∧ isBinary ((words[1]?).bind signOf?)
    if isCompared then holdsJoined facts true words
    else if words.length = 3 ∨ words.length = 4 then
      if words.head? = some ['('] ∧ words.getLast? = some [')'] then
        holdsJoined facts false (words.drop 1).dropLast
      else if words.head? = some ['!'] then (holds facts limit words.tail).map not
      else holdsJoined facts false words
    else holdsJoined facts false words

end CompiledViews.Condition
