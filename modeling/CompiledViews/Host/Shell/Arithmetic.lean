import CompiledViews.Host.Shell.Script

/-!
# Arithmetic of scripts

Expressions over whole numbers of 64 bits and variables, which may be assigned. An operator binds
its operands as tightly as its level says, and operators of a level are applied from the left. What
is not chosen by a condition has no effect.
-/

namespace CompiledViews.Shell.Arithmetic

/-- Whether a character is blank between the parts of an expression. -/
def isSpace (character : Char) : Bool := character == ' ' || character == '\t' || character == '\n'

/-- A number as far as 64 bits hold it. -/
def wrap (number : Int) : Int := Int.bmod number 18446744073709551616

def digitValue (digit : Char) : Nat :=
  if digit.isDigit then digit.toNat - 0x30
  else if 'a' ≤ digit ∧ digit ≤ 'f' then digit.toNat - 0x57
  else if 'A' ≤ digit ∧ digit ≤ 'F' then digit.toNat - 0x37
  else 16

/-- The number that digits of a base spell at the beginning of a text, and what follows them. -/
def digits (base : Nat) (text : Text) : Nat × Text :=
  let taken := text.takeWhile fun character => digitValue character < base
  (taken.foldl (fun value digit => value * base + digitValue digit) 0, text.drop taken.length)

/-- The number at the beginning of a text, which may be hexadecimal or octal, and what follows
it. -/
def natural (text : Text) : Nat × Text :=
  match text with
  | '0' :: mark :: digit :: rest =>
    if (mark == 'x' || mark == 'X') && decide (digitValue digit < 16) then
      digits 16 (digit :: rest)
    else digits 8 text
  | '0' :: _ => digits 8 text
  | _ => digits 10 text

/-- The whole number that a text is, in any base or in decimal notation only. A blank one is zero
where any base may be used. -/
def integer? (anyBase : Bool) (text : Text) : Option Int :=
  let start := text.dropWhile isSpace
  let unsigned : Text :=
    match start with
    | '-' :: rest | '+' :: rest => rest
    | _ => start
  let (value, after) := if anyBase then natural unsigned else digits 10 unsigned
  let signed : Int := if start.head? = some '-' then -(value : Int) else value
  let isEmpty := !unsigned.any Char.isDigit
  if !after.all isSpace || (isEmpty && !(anyBase && start.isEmpty)) || wrap signed != signed then
    none
  else some signed

/-- A binary operator: how it is written, its level, and what it computes if it can. -/
structure Operator where
  sign : Text
  level : Nat
  apply : Int → Int → Option Int

/-- The number for a truth value. -/
def truth (value : Bool) : Int := if value then 1 else 0

def bits (number : Int) : UInt64 := UInt64.ofNat (number % 18446744073709551616).toNat

/-- An operation on the bits of numbers. -/
def bitwise (operation : UInt64 → UInt64 → UInt64) (left right : Int) : Option Int :=
  some (wrap (operation (bits left) (bits right)).toNat)

/-- The binary operators that take numbers only, those with longer signs first. -/
def operators : List Operator := [
  ⟨"==", 4, fun left right => some (truth (left == right))⟩,
  ⟨"!=", 4, fun left right => some (truth (left != right))⟩,
  ⟨"<<", 6, fun left right => some (left * (Nat.pow 2 (right % 64).toNat : Nat))⟩,
  ⟨">>", 6, fun left right => some (left.fdiv (Nat.pow 2 (right % 64).toNat : Nat))⟩,
  ⟨"<=", 5, fun left right => some (truth (left ≤ right))⟩,
  ⟨">=", 5, fun left right => some (truth (right ≤ left))⟩,
  ⟨"<", 5, fun left right => some (truth (left < right))⟩,
  ⟨">", 5, fun left right => some (truth (right < left))⟩,
  ⟨"|", 1, bitwise (· ||| ·)⟩,
  ⟨"&", 3, bitwise (· &&& ·)⟩,
  ⟨"+", 7, fun left right => some (left + right)⟩,
  ⟨"-", 7, fun left right => some (left - right)⟩,
  ⟨"*", 8, fun left right => some (left * right)⟩,
  ⟨"/", 8, fun left right => if right = 0 then none else some (left.tdiv right)⟩,
  ⟨"%", 8, fun left right => if right = 0 then none else some (left.tmod right)⟩,
  ⟨[Char.ofNat 0x5E], 2, bitwise (· ^^^ ·)⟩]

/-- The operator at the beginning of a text, if it takes numbers only and is no assignment. -/
def operatorOf? (text : Text) : Option Operator :=
  match operators.find? fun operator => Text.startsWith text operator.sign with
  | none => none
  | some operator =>
    let isLogical := Text.startsWith text "&&" || Text.startsWith text "||"
    let assigns := !([4, 5] : List Nat).contains operator.level &&
      (text.drop operator.sign.length).head? == some '='
    if isLogical || assigns then none else some operator

/-- The operator of an assignment at the beginning of a text, unless that is a plain one, and what
follows it. -/
def assignmentOf? (text : Text) : Option (Option Operator × Text) :=
  match text with
  | '=' :: '=' :: _ => none
  | '=' :: rest => some (none, rest)
  | _ =>
    operators.findSome? fun operator =>
      if ([4, 5] : List Nat).contains operator.level then none
      else (Text.after? (operator.sign ++ "=") text).map fun rest => (some operator, rest)

/-- Why an expression has no value. -/
inductive Error where
  | malformed (reason : Text)
  | noNumber (value : Text)
deriving DecidableEq, Repr

/-- What is left of an expression, and what has been assigned, newest first. -/
structure Reading where
  rest : Text
  assigned : List (Text × Int)

/-- A reader of an expression. -/
abbrev Reader := StateT Reading (Except Error)

/-- What is left of the expression, without blanks. -/
def look : Reader Text := do
  modify fun reading => { reading with rest := reading.rest.dropWhile isSpace }
  return (← get).rest

/-- Goes on with what follows. -/
def goOn (rest : Text) : Reader Unit := modify fun reading => { reading with rest }

def variableValue (value : Text → Text) (name : Text) : Reader Int := do
  match (← get).assigned.lookup name with
  | some number => pure number
  | none =>
    match integer? true (value name) with
    | some number => pure number
    | none => throw (.noNumber (value name))

def applied (operator : Operator) (active : Bool) (left right : Int) : Reader Int :=
  if active then
    match operator.apply left right with
    | some number => pure (wrap number)
    | none => throw (.malformed "division by zero")
  else pure right

mutual

def operand (value : Text → Text) : (limit : Nat) → (active : Bool) → Reader Int
  | 0, _ => throw (.malformed "expecting primary")
  | limit + 1, active => do
    match ← look with
    | '-' :: rest =>
      goOn rest
      return wrap (-(← operand value limit active))
    | '+' :: rest =>
      goOn rest
      operand value limit active
    | '!' :: rest =>
      goOn rest
      return truth ((← operand value limit active) == 0)
    | '~' :: rest =>
      goOn rest
      return -(← operand value limit active) - 1
    | '(' :: rest =>
      goOn rest
      let number ← assigning value limit active
      match ← look with
      | ')' :: after =>
        goOn after
        pure number
      | _ => throw (.malformed "expecting \x27)\x27")
    | start :: rest =>
      if start.isDigit then
        let (number, after) := natural (start :: rest)
        goOn after
        pure (wrap number)
      else if isNameStart start then
        let text := start :: rest
        goOn (text.dropWhile isNameChar)
        if active then variableValue value (text.takeWhile isNameChar) else pure 0
      else throw (.malformed "expecting primary")
    | [] => throw (.malformed "expecting primary")

/-- The value of an expression whose operators have at least a level. -/
def binary (value : Text → Text) : (limit : Nat) → (active : Bool) → (level : Nat) → Reader Int
  | 0, _, _ => throw (.malformed "expecting primary")
  | limit + 1, active, level => do
    binaryAfter value limit active level (← operand value limit active)

/-- The value of an expression that begins with a value. -/
def binaryAfter (value : Text → Text) :
    (limit : Nat) → (active : Bool) → (level : Nat) → Int → Reader Int
  | 0, _, _, _ => throw (.malformed "expecting primary")
  | limit + 1, active, level, left => do
    let text ← look
    match operatorOf? text with
    | none => pure left
    | some operator =>
      if operator.level < level then pure left
      else
        goOn (text.drop operator.sign.length)
        let right ← binary value limit active (operator.level + 1)
        binaryAfter value limit active level (← applied operator active left right)

/-- The value of an expression whose parts are joined by `&&`. -/
def conjunction (value : Text → Text) : (limit : Nat) → (active : Bool) → Reader Int
  | 0, _ => throw (.malformed "expecting primary")
  | limit + 1, active => do
    let left ← binary value limit active 0
    match Text.after? "&&" (← look) with
    | some rest =>
      goOn rest
      let right ← conjunction value limit (active && left != 0)
      pure (truth (left != 0 && right != 0))
    | none => pure left

/-- The value of an expression whose parts are joined by `||`. -/
def disjunction (value : Text → Text) : (limit : Nat) → (active : Bool) → Reader Int
  | 0, _ => throw (.malformed "expecting primary")
  | limit + 1, active => do
    let left ← conjunction value limit active
    match Text.after? "||" (← look) with
    | some rest =>
      goOn rest
      let right ← disjunction value limit (active && left == 0)
      pure (truth (left != 0 || right != 0))
    | none => pure left

/-- The value of an expression that may be conditional. -/
def conditional (value : Text → Text) : (limit : Nat) → (active : Bool) → Reader Int
  | 0, _ => throw (.malformed "expecting primary")
  | limit + 1, active => do
    let condition ← disjunction value limit active
    match ← look with
    | '?' :: rest =>
      goOn rest
      let first ← assigning value limit (active && condition != 0)
      match ← look with
      | ':' :: after =>
        goOn after
        let second ← conditional value limit (active && condition == 0)
        pure (if condition != 0 then first else second)
      | _ => throw (.malformed "expecting \x27:\x27")
    | _ => pure condition

/-- The value of an expression that may be an assignment. -/
def assigning (value : Text → Text) : (limit : Nat) → (active : Bool) → Reader Int
  | 0, _ => throw (.malformed "expecting primary")
  | limit + 1, active => do
    let text ← look
    let name := if isName (text.take 1) then text.takeWhile isNameChar else []
    match name, assignmentOf? ((text.drop name.length).dropWhile isSpace) with
    | _ :: _, some (operator, rest) =>
      goOn rest
      let right ← assigning value limit active
      let number ←
        match operator with
        | some operator =>
          if active then do applied operator active (← variableValue value name) right
          else pure right
        | none => pure right
      if active then
        modify fun reading => { reading with assigned := (name, number) :: reading.assigned }
      pure number
    | _, _ => conditional value limit active

end

/-- The value of an expression and what it assigns, oldest first, given the values of variables. -/
def evaluate (value : Text → Text) (text : Text) : Except Error (Int × List (Text × Int)) := do
  let (number, reading) ← (assigning value (10 * text.length + 20) true).run ⟨text, []⟩
  if reading.rest.all isSpace then pure (number, reading.assigned.reverse)
  else throw (.malformed "expecting EOF")

end CompiledViews.Shell.Arithmetic
