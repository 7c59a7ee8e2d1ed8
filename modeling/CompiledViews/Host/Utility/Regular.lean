import CompiledViews.Host.Utility.Stream

/-!
# Regular expressions

An expression matches parts of a line. It is written in one of two notations, which differ in
whether signs have their meaning with or without a backslash. A repetition takes as much as it can.
-/

namespace CompiledViews

/-- An expression. -/
inductive Regular where
  | empty
  | char (character : Char)
  | any
  | oneOf (wanted : Bool) (ranges : List (Char × Char))
  | lineStart
  | lineEnd
  | wordEdge (atStart atEnd wanted : Bool)
  | group (number : Nat) (body : Regular)
  | back (number : Nat)
  | next (first second : Regular)
  | either (first second : Regular)
  | many (body : Regular) (least : Nat) (most : Option Nat)
deriving DecidableEq, Repr

namespace Regular

/-! ## Reading -/

/-- A sign of an expression. -/
inductive Sign where
  | atom (expression : Regular)
  | opening
  | closing
  | bar
  | repetition (least : Nat) (most : Option Nat)
deriving DecidableEq, Repr

/-- Whether a sign leaves nothing before the next one that could be repeated. -/
def Sign.beginsBranch : Option Sign → Bool
  | none | some .opening | some .bar => true
  | some (.atom .lineStart) => true
  | _ => false

/-- The ranges between brackets, and what follows them; a closing bracket is a member if it comes
first. -/
def readRanges : (limit : Nat) → (isFirst : Bool) → Text → Option (List (Char × Char) × Text)
  | 0, _, _ => none
  | _, _, [] => none
  | limit + 1, isFirst, ']' :: rest =>
    if isFirst then
      (readRanges limit false rest).map fun (ranges, left) => ((']', ']') :: ranges, left)
    else some ([], rest)
  | limit + 1, _, '[' :: ':' :: rest =>
    match Text.splitOnce ":]" rest with
    | some (name, after) =>
      (readRanges limit false after).map fun (ranges, left) =>
        ((Text.namedClass? name).getD [] ++ ranges, left)
    | none => none
  | limit + 1, _, low :: '-' :: high :: rest =>
    if high = ']' then
      (readRanges limit false ('-' :: high :: rest)).map fun (ranges, left) =>
        ((low, low) :: ranges, left)
    else
      (readRanges limit false rest).map fun (ranges, left) => ((low, high) :: ranges, left)
  | limit + 1, _, character :: rest =>
    (readRanges limit false rest).map fun (ranges, left) =>
      ((character, character) :: ranges, left)

/-- The bounds of a repetition that are written before a mark, and what follows that. -/
def readBounds? (mark text : Text) : Option (Sign × Text) := do
  let (inside, rest) ← Text.splitOnce mark text
  match Text.splitOnce "," inside with
  | some (least, most) =>
    let low ← if least = [] then some 0 else Utility.natural? least
    if most = [] then some (.repetition low none, rest)
    else do some (.repetition low (some (← Utility.natural? most)), rest)
  | none => do
    let count ← Utility.natural? inside
    some (.repetition count (some count), rest)

/-- The sign that a backslash and a character make in both notations. -/
def escapedSign (character : Char) : Sign :=
  let word : List (Char × Char) := [('a', 'z'), ('A', 'Z'), ('0', '9'), ('_', '_')]
  match character with
  | 'n' => .atom (.char '\n')
  | 't' => .atom (.char '\t')
  | 'w' => .atom (.oneOf true word)
  | 'W' => .atom (.oneOf false word)
  | 's' => .atom (.oneOf true [(' ', ' '), ('\t', '\r')])
  | 'S' => .atom (.oneOf false [(' ', ' '), ('\t', '\r')])
  | 'b' => .atom (.wordEdge true true true)
  | 'B' => .atom (.wordEdge true true false)
  | '<' => .atom (.wordEdge true false true)
  | '>' => .atom (.wordEdge false true true)
  | _ =>
    if '1' ≤ character ∧ character ≤ '9' then .atom (.back (character.toNat - 0x30))
    else .atom (.char character)

/-- The signs of an expression, in the notation with or without backslashes before signs. -/
def readSigns (extended : Bool) : (limit : Nat) → Option Sign → Text → List Sign
  | 0, _, _ => []
  | _, _, [] => []
  | limit + 1, before, text =>
    let put (sign : Sign) (rest : Text) : List Sign :=
      sign :: readSigns extended limit (some sign) rest
    match text with
    | [] => []
    | '\\' :: character :: rest =>
      if extended then put (escapedSign character) rest
      else
        match character with
        | '(' => put .opening rest
        | ')' => put .closing rest
        | '|' => put .bar rest
        | '+' => put (.repetition 1 none) rest
        | '?' => put (.repetition 0 (some 1)) rest
        | '\x7b' =>
          match readBounds? "\\\x7d" rest with
          | some (sign, left) => put sign left
          | none => put (.atom (.char '\x7b')) rest
        | _ => put (escapedSign character) rest
    | '.' :: rest => put (.atom .any) rest
    | '[' :: rest =>
      let isInverse := rest.head? = some '\x5e'
      match readRanges text.length true (if isInverse then rest.tail else rest) with
      | some (ranges, left) => put (.atom (.oneOf (!isInverse) ranges)) left
      | none => put (.atom (.char '[')) rest
    | '*' :: rest =>
      if Sign.beginsBranch before then put (.atom (.char '*')) rest
      else put (.repetition 0 none) rest
    | '\x5e' :: rest =>
      if extended || Sign.beginsBranch before then put (.atom .lineStart) rest
      else put (.atom (.char '\x5e')) rest
    | '$' :: rest =>
      if extended || rest.isEmpty || Text.startsWith rest "\\)" || Text.startsWith rest "\\|" then
        put (.atom .lineEnd) rest
      else put (.atom (.char '$')) rest
    | character :: rest =>
      if extended then
        match character with
        | '(' => put .opening rest
        | ')' => put .closing rest
        | '|' => put .bar rest
        | '+' => put (.repetition 1 none) rest
        | '?' => put (.repetition 0 (some 1)) rest
        | '\x7b' =>
          match readBounds? "\x7d" rest with
          | some (sign, left) => put sign left
          | none => put (.atom (.char '\x7b')) rest
        | _ => put (.atom (.char character)) rest
      else put (.atom (.char character)) rest

/-- What is left of the signs of an expression, and the number of the next group. -/
structure Reading where
  rest : List Sign
  group : Nat

/-- A reader of signs. -/
abbrev Reader := StateM Reading

/-- Leaves a sign behind if it is the next one. -/
def takeSign (sign : Sign) : Reader Bool := do
  match (← get).rest with
  | first :: others =>
    if first = sign then
      modify fun reading => { reading with rest := others }
      pure true
    else pure false
  | [] => pure false

/-- An expression with the repetitions that follow it. -/
def readRepetitions : (limit : Nat) → Regular → Reader Regular
  | 0, expression => pure expression
  | limit + 1, expression => do
    match (← get).rest with
    | .repetition least most :: others =>
      modify fun reading => { reading with rest := others }
      readRepetitions limit (.many expression least most)
    | _ => pure expression

mutual

def readBranches : (limit : Nat) → Reader Regular
  | 0 => pure .empty
  | limit + 1 => do
    let first ← readBranch limit
    if ← takeSign .bar then return .either first (← readBranches limit)
    else pure first

/-- Expressions one after the other. -/
def readBranch : (limit : Nat) → Reader Regular
  | 0 => pure .empty
  | limit + 1 => do
    match (← get).rest with
    | .atom expression :: others =>
      modify fun reading => { reading with rest := others }
      let first ← readRepetitions limit expression
      return .next first (← readBranch limit)
    | .opening :: others =>
      let number := (← get).group
      set (⟨others, number + 1⟩ : Reading)
      let body ← readBranches limit
      let _ ← takeSign .closing
      let first ← readRepetitions limit (.group number body)
      return .next first (← readBranch limit)
    | .repetition .. :: others =>
      modify fun reading => { reading with rest := others }
      readBranch limit
    | _ => pure .empty

end

def read (extended : Bool) (text : Text) : Regular :=
  let signs := readSigns extended (text.length + 1) none text
  ((readBranches (2 * signs.length + 2)).run ⟨signs, 1⟩).1

/-- The expression that matches a text as it is. -/
def literal (text : Text) : Regular :=
  text.foldr (fun character rest => .next (.char character) rest) .empty

/-! ## Matching -/

/-- Where a match has come to: the character before, what follows, what has been matched, newest
first, and what groups have matched. -/
structure Place where
  before : Option Char
  rest : Text
  taken : Text
  groups : List (Nat × Text)

namespace Place

/-- The place after the next character, if a test holds of that. -/
def step? (place : Place) (test : Char → Bool) : Option Place :=
  match place.rest with
  | character :: rest =>
    if test character then
      some { place with before := some character, rest, taken := character :: place.taken }
    else none
  | [] => none

def steps? (place : Place) (same : Char → Char → Bool) : Text → Option Place
  | [] => some place
  | character :: others => (place.step? (same character)).bind (·.steps? same others)

/-- Whether the place is at the start or the end of a word. -/
def atEdge (place : Place) (atStart atEnd : Bool) : Bool :=
  let isWord (character : Option Char) : Bool :=
    character.any fun c => c.isAlphanum || c == '_'
  let inside := isWord place.before
  let follows := isWord place.rest.head?
  (atStart && !inside && follows) || (atEnd && inside && !follows)

end Place

/-- Whether two characters count as the same. -/
def sameChar (folded : Bool) (left right : Char) : Bool :=
  if folded then left.toLower == right.toLower else left == right

/-- The place after a match of an expression that what follows accepts. -/
def matchFrom (folded : Bool) :
    (limit : Nat) → Regular → (follows : Place → Option Place) → Place → Option Place
  | 0, _, _, _ => none
  | limit + 1, expression, follows, place =>
    match expression with
    | .empty => follows place
    | .char wanted => (place.step? (sameChar folded wanted)).bind follows
    | .any => (place.step? fun _ => true).bind follows
    | .oneOf wanted ranges =>
      let inRanges (character : Char) : Bool :=
        ranges.any fun (low, high) => low ≤ character && character ≤ high
      (place.step? fun character =>
        (inRanges character || (folded && (inRanges character.toLower ||
          inRanges character.toUpper))) == wanted).bind follows
    | .lineStart => if place.before.isNone then follows place else none
    | .lineEnd => if place.rest.isEmpty then follows place else none
    | .wordEdge atStart atEnd wanted =>
      if place.atEdge atStart atEnd = wanted then follows place else none
    | .group number body =>
      matchFrom folded limit body (fun after =>
        let count := after.taken.length - place.taken.length
        follows { after with
          groups := (number, (after.taken.take count).reverse) :: after.groups }) place
    | .back number =>
      (place.steps? (sameChar folded) ((place.groups.lookup number).getD [])).bind follows
    | .next first second =>
      matchFrom folded limit first (matchFrom folded limit second follows) place
    | .either first second =>
      matchFrom folded limit first follows place <|> matchFrom folded limit second follows place
    | .many body least most =>
      let again : Option Place :=
        if most = some 0 then none
        else
          matchFrom folded limit body (fun after =>
            if after.rest.length = place.rest.length then none
            else
              matchFrom folded limit (.many body (least - 1) (most.map (· - 1))) follows after)
            place
      match again with
      | some final => some final
      | none => if least = 0 then follows place else none

/-- How many signs an expression has. -/
def size : Regular → Nat
  | group _ body | many body .. => body.size + 1
  | next first second | either first second => first.size + second.size + 1
  | _ => 1

/-- A match in a line: what is before it, what it is, what is after it, and what its groups are. -/
structure Match where
  before : Text
  matched : Text
  after : Text
  groups : List (Nat × Text)
deriving DecidableEq, Repr

/-- The match of an expression at the beginning of a text, given what is before it, newest
first. -/
def matchAt (expression : Regular) (folded : Bool) (before rest : Text) : Option Match :=
  let limit := (expression.size + 2) * (rest.length + 2)
  (matchFrom folded limit expression some ⟨before.head?, rest, [], []⟩).map fun place =>
    ⟨before.reverse, place.taken.reverse, place.rest, place.groups⟩

/-- The first match of an expression in a text, given what is before it, newest first. -/
def searchFrom (expression : Regular) (folded : Bool) (before : Text) : Text → Option Match
  | [] => matchAt expression folded before []
  | character :: rest =>
    match matchAt expression folded before (character :: rest) with
    | some found => some found
    | none => searchFrom expression folded (character :: before) rest

/-- The first match of an expression in a line. -/
def search? (expression : Regular) (folded : Bool) (line : Text) : Option Match :=
  expression.searchFrom folded [] line

/-- The matches of an expression in a line, which do not overlap. -/
def searchAll (expression : Regular) (folded : Bool) :
    (limit : Nat) → (before rest : Text) → List Match
  | 0, _, _ => []
  | limit + 1, before, rest =>
    match expression.searchFrom folded before rest with
    | none => []
    | some found =>
      let passed := found.matched.reverse ++ found.before.reverse
      found ::
        (if found.matched = [] then
          match found.after with
          | [] => []
          | character :: others => searchAll expression folded limit (character :: passed) others
        else searchAll expression folded limit passed found.after)

end Regular

end CompiledViews
