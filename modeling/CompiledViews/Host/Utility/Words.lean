import CompiledViews.Host.Format.Basic
import CompiledViews.Host.Utility.Condition
import CompiledViews.Host.Utility.Regular

/-!
# Utilities for words and numbers

They print their arguments, count, compute, and tell whether conditions hold.
-/

namespace CompiledViews.Utility

/-! ## Printing arguments -/

/-- The options at the beginning of arguments, in which each letter counts alone. -/
def echoOptions : List Text → Text × List Text
  | ('-' :: letter :: letters) :: others =>
    if (letter :: letters).all ("neE" : Text).contains then
      let (more, left) := echoOptions others
      (letter :: letters ++ more, left)
    else ([], ('-' :: letter :: letters) :: others)
  | arguments => ([], arguments)

/-- Prints the arguments, with escapes in them if that is wanted. -/
def echo : Utility Unit := do
  let (letters, words) := echoOptions (← arguments)
  let line := Text.join " " words
  let ending : Bytes := if letters.contains 'n' then [] else [Bytes.lineFeed]
  if (letters.filter (· != 'n')).getLast? = some 'e' then
    let (bytes, goesOn) := Host.Escape.expand Host.FormatStyle.program.argumentEscapes line
    print (if goesOn then bytes ++ ending else bytes)
  else print (line.bytes ++ ending)

/-- Complains of a problem with a format, and tells whether printing goes on after it. -/
def tellProblem : Host.FormatProblem → Utility Unit
  | .noNumber argument => complain (quoted argument ++ ": expected a numeric value")
  | .unfinishedNumber argument => complain (quoted argument ++ ": value not completely converted")
  | .outOfRange argument => complain (quoted argument ++ ": Numerical result out of range")
  | .noDirective written => complain (written ++ ": invalid conversion specification")
  | .noLetter => complain "%: invalid conversion specification"
  | .noDigits => complain "missing hexadecimal number in escape"

/-- Prints arguments in a format. -/
def printf : Utility Unit := do
  let given := match ← arguments with
    | ['-', '-'] :: others => others
    | given => given
  match given with
  | [] => misuse "missing operand"
  | format :: others =>
    let formatted := Host.format .program format others
    formatted.problems.forM tellProblem
    print formatted.bytes
    match formatted.left with
    | argument :: _ =>
      tell ((← read).name ++ ": warning: ignoring excess arguments, starting with " ++
        quoted argument ++ "\n")
    | [] => pure ()

/-- Prints a line without end. -/
def yes : Utility Unit := do
  let words ← arguments
  let line := Text.bytes ((if words = [] then ['y'] else Text.join " " words) ++ ['\n'])
  print (List.replicate (endlessBytes / line.length + 1) line).flatten
  modify ({ · with endless := true })

/-- Prints the environment, or the value of a variable in it. -/
def printenv : Utility Unit := do
  let environment := (← read).environment
  match ← arguments with
  | [] => environment.forM fun (name, value) => printLine (name ++ "=" ++ value)
  | names =>
    for name in names do
      match environment.lookup name with
      | some value => printLine value
      | none => fail 1

/-- Prints what the system is called. -/
def uname : Utility Unit := printLine "Linux"

/-- Prints who runs the utility: the name or the number. -/
def whoami (name : Text) : Utility Unit := printLine name

/-- Tells that there is no terminal. -/
def tty : Utility Unit := do
  printLine "not a tty"
  fail 1

/-- Prints where programs are found. -/
def which : Utility Unit := do
  let call ← read
  for name in call.arguments do
    let directories := Text.splitAll ':' ((call.environment.lookup "PATH".toList).getD [])
    let paths := if name.contains '/' then [name] else directories.map (Path.join · name)
    match paths.find? fun path => (call.files.locate path).toOption.any call.programs.contains with
    | some path => printLine path
    | none => fail 1

/-! ## Counting and waiting -/

/-- A number with digits after a point, as how many of its smallest units it has. -/
structure Decimal where
  units : Int
  places : Nat

namespace Decimal

/-- The number that a text is. -/
def read? (text : Text) : Option Decimal :=
  let (isNegative, unsigned) := Host.Numeral.signed text
  let (whole, fraction) := (Text.splitOnce "." unsigned).getD (unsigned, [])
  if whole ++ fraction = [] ∨ !(whole ++ fraction).all Char.isDigit then none
  else
    let units : Int := Host.Escape.spelled 10 (whole ++ fraction)
    some ⟨if isNegative then -units else units, fraction.length⟩

/-- The units of a number with more digits after the point. -/
def unitsAt (number : Decimal) (places : Nat) : Int :=
  number.units * (Nat.pow 10 (places - number.places) : Nat)

def shown (places : Nat) (units : Int) : Text :=
  (if units < 0 then ['-'] else []) ++ Host.Fraction.pointed false places units.natAbs

/-- A text with zeros after its sign up to a width. -/
def padded (width : Nat) (text : Text) : Text :=
  match text with
  | '-' :: digits => '-' :: List.replicate (width - text.length) '0' ++ digits
  | digits => List.replicate (width - digits.length) '0' ++ digits

end Decimal

/-- The options of a sequence of numbers, whose arguments may be negative: a separator, a format,
and whether all have the same width. -/
def sequenceOptions : (limit : Nat) → List Text → Options
  | 0, arguments => ⟨[], arguments⟩
  | _, [] => ⟨[], []⟩
  | limit + 1, ['-', 'w'] :: others => (sequenceOptions limit others).withOption 'w' []
  | limit + 1, ['-', 's'] :: value :: others => (sequenceOptions limit others).withOption 's' value
  | limit + 1, ['-', 'f'] :: value :: others => (sequenceOptions limit others).withOption 'f' value
  | limit + 1, ('-' :: 's' :: value) :: others =>
    (sequenceOptions limit others).withOption 's' value
  | limit + 1, ('-' :: 'f' :: value) :: others =>
    (sequenceOptions limit others).withOption 'f' value
  | _, others => ⟨[], others⟩

/-- Prints the numbers of a range. -/
def seq : Utility Unit := do
  let given ← arguments
  let options := sequenceOptions (given.length + 1) given
  match options.operands.find? fun word => (Decimal.read? word).isNone with
  | some word => misuse ("invalid floating point argument: " ++ quoted word)
  | none =>
    let numbers := options.operands.filterMap Decimal.read?
    let one : Decimal := ⟨1, 0⟩
    let range : Option (Decimal × Decimal × Decimal) :=
      match numbers with
      | [last] => some (one, one, last)
      | [first, last] => some (first, one, last)
      | [first, step, last] => some (first, step, last)
      | _ => none
    match range with
    | none =>
      match options.operands[3]? with
      | some word => misuse ("extra operand " ++ quoted word)
      | none => misuse "missing operand"
    | some (first, step, last) =>
      if step.units = 0 then
        misuse ("invalid Zero increment value: " ++ quoted (options.operands.getD 1 []))
      else
        let places := max first.places step.places
        let all := max places last.places
        let (start, width, stop) := (first.unitsAt all, step.unitsAt all, last.unitsAt all)
        let count := ((stop - start).fdiv width + 1).toNat
        let scale : Int := (Nat.pow 10 (all - places) : Nat)
        let values := (List.range count).map fun (index : Nat) =>
          (start + width * (index : Int)).tdiv scale
        let texts := values.map (Decimal.shown places)
        let widest := (texts.map List.length).foldl max 0
        let lines :=
          match options.value? 'f' with
          | some format => texts.map fun text =>
            Bytes.loose (Host.format .program format [text]).bytes
          | none => if options.has 'w' then texts.map (Decimal.padded widest) else texts
        if lines != [] then
          printText (Text.join ((options.value? 's').getD "\n") lines ++ "\n")

/-- The milliseconds of a duration in seconds, minutes, hours or days. -/
def duration? (text : Text) : Option Nat :=
  let isNumeral (character : Char) : Bool := character.isDigit || character == '.'
  let scale : Option Nat :=
    match text.dropWhile isNumeral with
    | [] | ['s'] => some 1000
    | ['m'] => some 60000
    | ['h'] => some 3600000
    | ['d'] => some 86400000
    | _ => none
  if text = "infinity" ∨ text = "inf" then some 1000000000000
  else
    match scale, Decimal.read? (text.takeWhile isNumeral) with
    | some scale, some number => some (number.units.toNat * scale / Nat.pow 10 number.places)
    | _, _ => none

def sleep : Utility Unit :=
  withOperands [] [] fun options => do
    for word in options.operands do
      match duration? word with
      | some time => modify fun run => { run with time := run.time + time }
      | none => misuse ("invalid time interval " ++ quoted word)
    if (← get).status != 0 then modify ({ · with time := 0 })

/-! ## Conditions and expressions -/

/-- Tells by its status whether a condition holds. -/
def test (closed : Bool) : Utility Unit := do
  let call ← read
  let words := call.arguments
  let facts : Condition.Facts := ⟨call.files, call.programs, fun _ => false⟩
  if closed && words.getLast? != some "]" then complainAs 2 "missing \x27]\x27"
  else
    let condition := if closed then words.dropLast else words
    match Condition.holds facts (condition.length + 2) condition with
    | .ok true => pure ()
    | .ok false => fail 1
    | .error (.noNumber word) => complainAs 2 ("invalid integer " ++ quoted word)
    | .error problem =>
      complainAs 2 (match condition, problem with
        | [_, second], .unexpected _ => "missing argument after " ++ quoted second
        | [_, second, _], .unexpected _ => quoted second ++ ": binary operator expected"
        | _, _ => problem.message)

/-- Why an expression has no value. -/
inductive ExpressionError where
  | division
  | noInteger
  | unfinished (word : Text)
  | unexpected (word : Text)
deriving DecidableEq, Repr

/-- The error in words. -/
def ExpressionError.message : ExpressionError → Text
  | division => "division by zero"
  | noInteger => "non-integer argument"
  | unfinished word => "syntax error: missing argument after " ++ quoted word
  | unexpected word => "syntax error: unexpected argument " ++ quoted word

abbrev ExpressionReader := StateT (List Text) (Except ExpressionError)

def integerText (value : Int) : Text :=
  (if value < 0 then ['-'] else []) ++ Text.ofNat value.natAbs

/-- Whether a value counts as none. -/
def isNoValue (value : Text) : Bool := value == [] || integer? value == some 0

/-- The value of a sign with a level between two values. -/
def expressionValue? (sign left right : Text) : Option (Nat × Except ExpressionError Text) :=
  let numbers :=
    (integer? left).bind fun first => (integer? right).map fun second => (first, second)
  let whole (apply : Int → Int → Except ExpressionError Int) : Except ExpressionError Text :=
    match numbers with
    | some (first, second) => (apply first second).map integerText
    | none => .error .noInteger
  let order (byNumber : Int → Int → Bool) (byText : Bool) : Except ExpressionError Text :=
    let holds := match numbers with
      | some (first, second) => byNumber first second
      | none => byText
    .ok (if holds then "1" else "0")
  let before := Text.precedes left right
  let after := Text.precedes right left
  let divided (divide : Int → Int → Int) : Except ExpressionError Text :=
    whole fun first second => if second = 0 then .error .division else .ok (divide first second)
  match Text.toString sign with
  | "|" => some (0, .ok (if !isNoValue left then left else if isNoValue right then "0" else right))
  | "&" => some (1, .ok (if isNoValue left || isNoValue right then "0" else left))
  | "<" => some (2, order (fun first second => first < second) before)
  | "<=" => some (2, order (fun first second => first ≤ second) (!after))
  | "=" | "==" => some (2, order (fun first second => first == second) (left == right))
  | "!=" => some (2, order (fun first second => first != second) (left != right))
  | ">=" => some (2, order (fun first second => second ≤ first) (!before))
  | ">" => some (2, order (fun first second => second < first) after)
  | "+" => some (3, whole fun first second => .ok (first + second))
  | "-" => some (3, whole fun first second => .ok (first - second))
  | "*" => some (4, whole fun first second => .ok (first * second))
  | "/" => some (4, divided Int.tdiv)
  | "%" => some (4, divided Int.tmod)
  | ":" =>
    let expression := Regular.read false right
    let found := expression.matchAt false [] left
    let grouped := (Text.splitOnce "\\(" right).isSome
    let value : Text :=
      match found with
      | some place =>
        if grouped then (place.groups.lookup 1).getD [] else Text.ofNat place.matched.length
      | none => if grouped then [] else "0"
    some (5, .ok value)
  | _ => none

mutual

def readOperand (before : Text) : (limit : Nat) → ExpressionReader Text
  | 0 => throw (.unfinished before)
  | limit + 1 => do
    match ← get with
    | [] => throw (.unfinished before)
    | ['('] :: rest =>
      set rest
      let value ← readExpression "(" limit 0
      match ← get with
      | [')'] :: others =>
        set others
        pure value
      | word :: _ => throw (.unexpected word)
      | [] => throw (.unfinished value)
    | word :: rest =>
      set rest
      let takes (count : Nat) (value : List Text → Text) : ExpressionReader Text := do
        let words ← get
        if words.length < count then throw (.unfinished (words.getLast?.getD word))
        set (words.drop count)
        pure (value words)
      match Text.toString word with
      | "length" => takes 1 fun words => Text.ofNat (words.getD 0 []).length
      | "index" =>
        takes 2 fun words =>
          Text.ofNat (((words.getD 0 []).findIdx? (words.getD 1 []).contains).map (· + 1) |>.getD 0)
      | "substr" =>
        takes 3 fun words =>
          match natural? (words.getD 1 []), natural? (words.getD 2 []) with
          | some (start + 1), some count => ((words.getD 0 []).drop start).take count
          | _, _ => []
      | _ => pure word

/-- The value of an expression whose signs have at least a level. -/
def readExpression (before : Text) : (limit : Nat) → (level : Nat) → ExpressionReader Text
  | 0, _ => throw (.unfinished before)
  | limit + 1, level => do readMore limit level (← readOperand before limit)

/-- The value of an expression that begins with a value. -/
def readMore : (limit : Nat) → (level : Nat) → Text → ExpressionReader Text
  | 0, _, value => pure value
  | limit + 1, level, left => do
    match ← get with
    | sign :: rest =>
      match expressionValue? sign left [] with
      | some (found, _) =>
        if found < level then pure left
        else
          set rest
          let right ← readExpression sign limit (found + 1)
          match expressionValue? sign left right with
          | some (_, .ok value) => readMore limit level value
          | some (_, .error error) => throw error
          | none => pure left
      | none => pure left
    | [] => pure left

end

/-- Prints the value of an expression. -/
def expr : Utility Unit := do
  let words := match ← arguments with
    | ['-', '-'] :: others => others
    | words => words
  if words.isEmpty then misuseAs 2 "missing operand"
  else
    match (readExpression [] (4 * words.length + 4) 0).run words with
    | .ok (value, []) =>
      printLine value
      if isNoValue value then fail 1
    | .ok (_, word :: _) => complainAs 2 (ExpressionError.unexpected word).message
    | .error error => complainAs 2 error.message

end CompiledViews.Utility
