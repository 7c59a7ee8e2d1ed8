import CompiledViews.Host.Utility.Basic

/-!
# Utilities for bytes and lines

They read files or their input and print parts or changed forms of them.
-/

namespace CompiledViews.Utility

/-! ## Files as they are -/

/-- A byte as it is shown where all can be seen. -/
def visibleByte (byte : UInt8) : Bytes :=
  let shown (code : Nat) : Text :=
    if code < 0x20 then ['\x5e', Char.ofNat (code + 0x40)]
    else if code = 0x7F then "\x5e?"
    else [Char.ofNat code]
  if byte = 0x09 ∨ byte = 0x0A then [byte]
  else if byte < 0x80 then Text.utf8 (shown byte.toNat)
  else Text.utf8 ("M-" ++ shown (byte.toNat - 0x80))

/-- Which forms of its input a printing of files has: visible bytes, visible tabs, marks at the ends
of lines, and numbers of all lines or of those that are not empty. -/
structure FileView where
  bytes : Bool
  tabs : Bool
  ends : Bool
  numbers : Bool
  fullNumbers : Bool
  squeezed : Bool
deriving DecidableEq, Repr

namespace FileView

/-- The view that letters ask for. -/
def ofOptions (options : Options) : FileView where
  bytes := "vAet".toList.any options.has
  tabs := "AtT".toList.any options.has
  ends := "AeE".toList.any options.has
  numbers := options.has 'n'
  fullNumbers := options.has 'b'
  squeezed := options.has 's'

/-- Whether files are printed as they are. -/
def isPlain (view : FileView) : Bool := view == ⟨false, false, false, false, false, false⟩

def lineBytes (view : FileView) (line : Bytes) : Bytes :=
  line.flatMap fun byte =>
    if byte = 0x0A then (if view.ends then [0x24, 0x0A] else [0x0A])
    else if byte = 0x09 ∧ view.tabs then [0x5E, 0x49]
    else if view.bytes then visibleByte byte
    else [byte]

/-- The bytes of lines in a view, the first one of which has a number, and the number after the
last one. -/
def shown (view : FileView) : Nat → (afterEmpty : Bool) → List Bytes → Bytes
  | _, _, [] => []
  | number, afterEmpty, line :: others =>
    let isEmpty := line == [Bytes.lineFeed]
    if view.squeezed && isEmpty && afterEmpty then view.shown number true others
    else
      let isNumbered := if view.fullNumbers then !isEmpty else view.numbers
      let label := if isNumbered then Text.utf8 (Text.padLeft 6 (Text.ofNat number) ++ "\t") else []
      label ++ view.lineBytes line ++
        view.shown (if isNumbered then number + 1 else number) isEmpty others

end FileView

def printInput : Utility Unit := do
  match (← read).input with
  | .error reason =>
    complain (pathComplaint "-" reason)
    if reason != OsError.isDirectory.description then
      complain (pathComplaint "closing standard input" reason)
  | .ok _ => pure ()
  modify fun run => { run with printed := .input :: run.printed, uses := .everything }

/-- Prints files one after the other. -/
def cat : Utility Unit :=
  withOptions "vAetETnbsu" [] fun options => do
    let view := FileView.ofOptions options
    let paths := if options.operands.isEmpty then [['-']] else options.operands
    if view.isPlain then
      for path in paths do
        let place := ((← get).files.locate path).toOption
        if isInput path then printInput
        else
          withBytes path (pathComplaint path) fun bytes => do
            if place == (← read).outputPlace && place.isSome && bytes != [] then
              complain (pathComplaint path "input file is output file")
            else print bytes
    else
      let mut bytes : Bytes := []
      for path in paths do
        match ← readPath path with
        | .ok more => bytes := bytes ++ more
        | .error reason => complain (pathComplaint path reason)
      print (view.shown 1 false bytes.lines)

/-- Prints its input, and writes it to files. -/
def tee : Utility Unit :=
  withOptions "ai" [] fun options => do
    let bytes := (← readInput).toOption.getD []
    modify fun run => { run with printed := .input :: run.printed }
    for path in options.operands do
      let files := (← get).files
      let before := if options.has 'a' then (files.readBytes path).toOption.getD [] else []
      let _ ← perform (FileTree.writeFile path (before ++ bytes)) fun error =>
        pathComplaint path error.description

/-! ## Parts of files -/

/-- How much of a file is wanted: a number of units, all but a number of them, or all from one
on. -/
inductive Extent where
  | count (number : Nat)
  | without (number : Nat)
  | start (number : Nat)
deriving DecidableEq, Repr

/-- The extent that an argument asks for, where a bare number is wanted from the beginning. -/
def extent? (text : Text) : Option Extent :=
  match text with
  | '+' :: digits => (natural? digits).map .start
  | '-' :: digits => (natural? digits).map .without
  | digits => (natural? digits).map .count

def firstOf {α : Type} (extent : Extent) (units : List α) : List α :=
  match extent with
  | .count number | .start number => units.take number
  | .without number => units.take (units.length - number)

def lastOf {α : Type} (extent : Extent) (units : List α) : List α :=
  match extent with
  | .count number | .without number => units.drop (units.length - number)
  | .start number => units.drop (number - 1)

/-- Prints a part of each file, under its name if there are several ones. -/
def printParts (options : Options) (part : Bytes → Bytes) : Utility Unit := do
  let paths := if options.operands.isEmpty then [['-']] else options.operands
  let named := (1 < paths.length || options.has 'v') && !options.has 'q'
  let mut isFirst := true
  for path in paths do
    match ← readPath path with
    | .ok bytes =>
      if named then
        let shown : Text := if path = ['-'] then "standard input" else path
        printText ((if isFirst then [] else "\n".toList) ++ "==> " ++ shown ++ " <==\n")
        isFirst := false
      print (part bytes)
    | .error reason =>
      if reason = OsError.isDirectory.description then
        if named then
          printText ((if isFirst then [] else "\n".toList) ++ "==> " ++ path ++ " <==\n")
          isFirst := false
        complain ("error reading " ++ quoted path ++ ": " ++ reason)
      else complain ("cannot open " ++ quoted path ++ " for reading: " ++ reason)

/-- Arguments in which a leading number of lines is an option like the others. -/
def withoutOldCount : List Text → List Text
  | ('-' :: digit :: rest) :: others =>
    if digit.isDigit then ['-', 'n'] :: (digit :: rest) :: others
    else ('-' :: digit :: rest) :: others
  | others => others

/-- Prints the part of files that options ask for, ten lines by default. -/
def printExtent (take : {α : Type} → Extent → List α → List α) (stopsEarly : Bool) :
    Utility Unit := do
  let given := withoutOldCount (← arguments)
  match Options.read "qvfz" "nc" (Options.bound given) given with
  | .error complaint => misuse complaint
  | .ok options =>
    let isBytes := options.has 'c'
    let text := (options.value? (if isBytes then 'c' else 'n')).getD "10"
    match extent? text with
    | none =>
      complain ("invalid number of " ++ (if isBytes then "bytes" else "lines") ++ ": " ++
        quoted text)
    | some extent =>
      let part (bytes : Bytes) : Bytes :=
        if isBytes then take extent bytes else (take extent bytes.lines).flatten
      let endless := options.operands == ["/dev/zero".toList] && isBytes
      match endless, extent with
      | true, .count number => print (List.replicate number 0)
      | _, _ =>
        printParts options part
        let printed := part ((← read).inputBytes)
        let units := if isBytes then printed.length else printed.count Bytes.lineFeed
        if stopsEarly && extent == .count units && (← get).uses == .everything then
          modify ({ · with uses := .blocks printed.length })

/-- Prints the first lines or bytes of files, and reads on no further than it has to. -/
def head : Utility Unit := printExtent firstOf true

/-- Prints the last lines or bytes of files. -/
def tail : Utility Unit := printExtent lastOf false

/-! ## Counting -/

/-- The numbers of lines, words and bytes, and the length of the longest line. -/
def counts (bytes : Bytes) : List Nat :=
  let blank (byte : UInt8) : Bool := byte = 0x20 || (0x09 ≤ byte && byte ≤ 0x0D)
  let wordStarts := (bytes.zip (0x20 :: bytes)).countP fun (byte, before) =>
    !blank byte && blank before
  let lengths := bytes.lines.map fun line => (line.filter (· != Bytes.lineFeed)).length
  [bytes.count Bytes.lineFeed, wordStarts, bytes.length, lengths.foldl max 0]

/-- What is counted of a path: its numbers, which are shown, the size that tells how wide they can
get, if it is that of a file, and what is wrong with it. -/
structure CountRow where
  name : Option Text
  numbers : Option (List Nat)
  size : Option Nat
  problem : Option Text

/-- Counts what is at a path. -/
def countPath (path : Text) : Utility CountRow := do
  let call ← read
  match ← readPath path with
  | .ok bytes =>
    pure ⟨some path, some (counts bytes), if isInput path then call.inputSize else bytes.length,
      none⟩
  | .error reason =>
    let isThere := reason = OsError.isDirectory.description
    pure ⟨some path, if isThere then some [0, 0, 0, 0] else none, none, some reason⟩

/-- How wide counted numbers are shown. -/
def countWidth (columns : Nat) : List CountRow → Nat
  | [] => 1
  | row :: others =>
    if (columns = 1 ∧ others.isEmpty) ∨ row.numbers.isNone then 1
    else
      let counted := (row :: others).filter (·.numbers.isSome)
      let total := (counted.filterMap (·.size)).foldl (· + ·) 0
      max (Text.ofNat total).length (if counted.all (·.size.isSome) then 1 else 7)

/-- Counts the lines, words and bytes of files. -/
def wc : Utility Unit :=
  withOptions "lwcmL" [] fun options => do
    let chosen := ("lwcL".toList.zip [0, 1, 2, 3]).filter fun (letter, _) =>
      options.has letter || (letter == 'c' && options.has 'm')
    let wanted := if chosen.isEmpty then [0, 1, 2] else chosen.map (·.2)
    let rows : List CountRow ←
      if options.operands.isEmpty then do pure [{ ← countPath ['-'] with name := none }]
      else options.operands.mapM countPath
    let width := countWidth wanted.length rows
    let line (name : Option Text) (numbers : List Nat) : Text :=
      Text.join " " (wanted.map fun place =>
        Text.padLeft width (Text.ofNat (numbers.getD place 0))) ++
        (match name with
        | some name => " " ++ name
        | none => [])
    for row in rows do
      match row.problem with
      | some reason => complain (pathComplaint (row.name.getD ['-']) reason)
      | none => pure ()
      match row.numbers with
      | some numbers => printLine (line row.name numbers)
      | none => pure ()
    if 1 < rows.length then
      let sums := rows.foldl (fun sums row =>
        match row.numbers with
        | some [lines, words, bytes, longest] =>
          List.zipWith (· + ·) sums [lines, words, bytes, 0] |>.set 3 (max (sums.getD 3 0) longest)
        | _ => sums) [0, 0, 0, 0]
      printLine (line (some "total") sums)

/-! ## Bytes in the place of others -/

def byteClass (name : Text) : Bytes :=
  ((Text.namedClass? name).getD []).flatMap fun (low, high) =>
    (List.range' low.toNat (high.toNat + 1 - low.toNat)).map UInt8.ofNat

def setEscapes : Host.EscapeStyle := ⟨false, false, false⟩

def byteSet : (limit : Nat) → Text → Bytes
  | 0, _ => []
  | _, [] => []
  | limit + 1, '[' :: ':' :: rest =>
    match Text.splitOnce ":]" rest with
    | some (name, left) => byteClass name ++ byteSet limit left
    | none => 0x5B :: byteSet limit (':' :: rest)
  | limit + 1, character :: others =>
    let (first, rest) : Bytes × Text :=
      if character = '\\' then
        match Host.Escape.read setEscapes others with
        | (.bytes bytes, left) =>
          (if bytes.length = 2 then bytes.drop 1 else bytes, left)
        | (_, left) => ([], left)
      else (charBytes character, others)
    match first, rest with
    | [low], '-' :: high :: left =>
      let highByte := (charBytes high).head?.getD low
      (List.range' low.toNat (highByte.toNat + 1 - low.toNat)).map UInt8.ofNat ++ byteSet limit left
    | _, _ => first ++ byteSet limit rest

/-- The bytes without those that are the same as the one before and belong to a set. -/
def squeeze (set : Bytes) : Bytes → Bytes
  | first :: second :: rest =>
    if first = second ∧ set.contains first then squeeze set (second :: rest)
    else first :: squeeze set (second :: rest)
  | bytes => bytes

/-- A byte in place of another one, by its place in two sets; the last one of the second set stands
for all that are missing there. -/
def translate (old new : Bytes) (byte : UInt8) : UInt8 :=
  match old.idxOf? byte with
  | some place => new.getD place (new.getLast?.getD byte)
  | none => byte

/-- Puts bytes in the place of others, or leaves them out. -/
def tr : Utility Unit :=
  withOperands "cCdst" [] fun options => do
    let set (text : Text) : Bytes := byteSet (text.length + 1) text
    let isInverse := options.has 'c' || options.has 'C'
    let inverse (bytes : Bytes) : Bytes :=
      if isInverse then
        ((List.range 256).map UInt8.ofNat).filter fun byte => !bytes.contains byte
      else bytes
    let reads := 2 ≤ options.operands.length ∨ options.has 'd' ∨ options.has 's'
    let input : Bytes ← if reads then (·.toOption.getD []) <$> readInput else pure []
    match options.operands, options.has 'd', options.has 's' with
    | [set1], true, _ =>
      let unwanted := inverse (set set1)
      print (input.filter fun byte => !unwanted.contains byte)
    | [set1], false, true => print (squeeze (inverse (set set1)) input)
    | [set1], false, false =>
      complain ("missing operand after " ++ quoted set1)
      tell "Two strings must be given when translating.\n"
      hint
    | set1 :: set2 :: _, deletes, squeezes =>
      let old := inverse (set set1)
      let new := set set2
      let changed := if deletes then input.filter fun byte => !old.contains byte
        else input.map (translate old new)
      print (if squeezes then squeeze new changed else changed)
    | [], _, _ => pure ()

/-! ## Lines -/

/-- Prints lines in the other order of their bytes. -/
def rev : Utility Unit :=
  withOptions [] [] fun options => do
    for path in if options.operands.isEmpty then [['-']] else options.operands do
      withBytes path (fun reason => "cannot open " ++ path ++ ": " ++ reason) fun bytes =>
        bytes.lines.forM fun line =>
          let text := line.filter (· != Bytes.lineFeed)
          print (Text.bytes (Bytes.loose text).reverse ++ line.filter (· == Bytes.lineFeed))

/-- Prints lines in the other order. -/
def tac : Utility Unit :=
  withOptions [] [] fun options => do
    for path in if options.operands.isEmpty then [['-']] else options.operands do
      withBytes path
        (fun reason => "failed to open " ++ quoted path ++ " for reading: " ++ reason) fun bytes =>
        print bytes.lines.reverse.flatten

/-- Prints lines with their numbers. -/
def nl : Utility Unit :=
  withOptions [] "ba" fun options => do
    let mut number := 1
    for path in if options.operands.isEmpty then [['-']] else options.operands do
      match ← readPath path with
      | .ok bytes =>
        for line in textLines bytes do
          if line = [] ∧ options.value? 'b' ≠ some "a" then printLine "       "
          else
            printLine (Text.padLeft 6 (Text.ofNat number) ++ "\t" ++ line)
            number := number + 1
      | .error reason => complain (pathComplaint path reason)

/-- How lines are ordered: by which part of them, as numbers, in the other order, or without regard
to the case of letters. -/
structure LineOrder where
  separator : Option Char
  first : Nat
  last : Option Nat
  numbers : Bool
  reversed : Bool
  folded : Bool

namespace LineOrder

/-- The parts of a line; blanks before a part belong to it. -/
def parts (order : LineOrder) (line : Text) : List Text :=
  match order.separator with
  | some separator => Text.splitAll separator line
  | none => (cut line.length line)
where
  /-- The parts of a line that begin with blanks. -/
  cut : (limit : Nat) → Text → List Text
    | 0, _ => []
    | _, [] => []
    | limit + 1, text =>
      let blanks := text.takeWhile Char.isWhitespace
      let word := (text.drop blanks.length).takeWhile (!·.isWhitespace)
      (blanks ++ word) :: cut limit (text.drop (blanks.length + word.length))

/-- The part of a line that it is ordered by. -/
def key (order : LineOrder) (line : Text) : Text :=
  if order.first = 0 then line
  else
    let parts := order.parts line
    let upTo := match order.last with
      | some last => parts.take last
      | none => parts
    Text.join (order.separator.toList) (upTo.drop (order.first - 1))

/-- The number at the beginning of a key, in thousandths. -/
def number (key : Text) : Int :=
  let text := key.dropWhile Char.isWhitespace
  let (isNegative, unsigned) : Bool × Text := match text with
    | '-' :: rest => (true, rest)
    | _ => (false, text)
  let whole := unsigned.takeWhile Char.isDigit
  let fraction := match unsigned.drop whole.length with
    | '.' :: rest => (rest.takeWhile Char.isDigit).take 3
    | _ => []
  let digits := whole ++ fraction ++ List.replicate (3 - fraction.length) '0'
  let value : Int := Host.Escape.spelled 10 digits
  if isNegative then -value else value

/-- Whether the key of a line comes before that of another one. -/
def keyPrecedes (order : LineOrder) (left right : Text) : Bool :=
  let left := order.key left
  let right := order.key right
  if order.numbers then decide (number left < number right)
  else if order.folded then Text.precedes (left.map Char.toUpper) (right.map Char.toUpper)
  else Text.precedes left right

/-- Whether a line does not come after another one; the whole of them decides between equal
keys. -/
def notAfter (order : LineOrder) (left right : Text) : Bool :=
  let (earlier, later) := if order.reversed then (right, left) else (left, right)
  if order.keyPrecedes earlier later then true
  else if order.keyPrecedes later earlier then false
  else if order.reversed && order.first = 0 then !Text.precedes left right
  else !Text.precedes right left

/-- Lines in order, without those whose keys are the same as that of the one before if wanted. -/
def sort (order : LineOrder) (unique : Bool) (lines : List Text) : List Text :=
  let sorted := lines.mergeSort order.notAfter
  if unique then
    (sorted.foldl (fun kept line =>
      match kept with
      | last :: _ =>
        if order.keyPrecedes last line || order.keyPrecedes line last then line :: kept else kept
      | [] => [line]) []).reverse
  else sorted

end LineOrder

/-- Prints the lines of files in order. -/
def sort : Utility Unit :=
  withOptionsAs 2 "rnufbsgh" "kto" fun options => do
    let key := (options.value? 'k').getD []
    let (start, rest) := (Text.splitOnce "," key).getD (key, [])
    let order : LineOrder :=
      { separator := (options.value? 't').bind List.head?
        first := Host.Escape.spelled 10 (start.takeWhile Char.isDigit)
        last := natural? (rest.takeWhile Char.isDigit)
        numbers := options.has 'n' || options.has 'g' || key.contains 'n'
        reversed := options.has 'r' || key.contains 'r'
        folded := options.has 'f' || key.contains 'f' }
    let mut lines : List Text := []
    for path in if options.operands.isEmpty then [['-']] else options.operands do
      match ← readPath path with
      | .ok bytes => lines := lines ++ textLines bytes
      | .error reason =>
        if reason = OsError.isDirectory.description then
          complainAs 2 ("read failed: " ++ path ++ ": " ++ reason)
        else complainAs 2 ("cannot read: " ++ path ++ ": " ++ reason)
    if (← get).status = 0 then
      let sorted := Text.unlines (order.sort (options.has 'u') lines)
      match options.value? 'o' with
      | some path =>
        let _ ← perform (FileTree.writeFile path sorted.bytes) fun error =>
          "open failed: " ++ path ++ ": " ++ error.description
      | none => printText sorted

/-- Lines and how often each one stands there in a row. -/
def rowCounts (same : Text → Text → Bool) : List Text → List (Nat × Text)
  | [] => []
  | line :: others =>
    match rowCounts same others with
    | (count, next) :: rest =>
      if same line next then (count + 1, line) :: rest else (1, line) :: (count, next) :: rest
    | [] => [(1, line)]

/-- Prints lines that are the same in a row only once. -/
def uniq : Utility Unit :=
  withOptions "cdui" [] fun options => do
    let same (left right : Text) : Bool :=
      if options.has 'i' then left.map Char.toLower == right.map Char.toLower else left == right
    let path := options.operands.head?.getD ['-']
    match options.operands[2]? with
    | some word => misuse ("extra operand " ++ quoted word)
    | none => withBytes path (pathComplaint path) fun bytes => do
      for (count, line) in rowCounts same (textLines bytes) do
        if (options.has 'd' && count = 1) || (options.has 'u' && 1 < count) then pure ()
        else if options.has 'c' then
          printLine (Text.padLeft 7 (Text.ofNat count) ++ " " ++ line)
        else printLine line

/-- The ranges of places that a list names. -/
def placeRanges (list : Text) : List (Nat × Option Nat) :=
  (Text.splitAll ',' list).map fun item =>
    match Text.splitOnce "-" item with
    | some (first, last) => ((natural? first).getD 1, natural? last)
    | none => ((natural? item).getD 0, natural? item)

/-- The members of a list at places that ranges name. -/
def atPlaces {α : Type} (ranges : List (Nat × Option Nat)) (members : List α) : List α :=
  (members.zipIdx 1).filterMap fun (member, place) =>
    if ranges.any fun (first, last) => first ≤ place && last.all (place ≤ ·) then some member
    else none

/-- Prints parts of lines. -/
def cut : Utility Unit :=
  withOptions "s" "dfcb" fun options => do
    let separator := ((options.value? 'd').bind List.head?).getD '\t'
    let places := (options.value? 'f' <|> options.value? 'c' <|> options.value? 'b').getD ['1']
    if (options.value? 'd').any (1 < ·.length) then
      misuse "the delimiter must be a single character"
    else if (placeRanges places).any (·.1 = 0) then
      misuse (if options.has 'f' then "fields are numbered from 1"
        else "byte/character positions are numbered from 1")
    else match options.value? 'f', options.value? 'c' <|> options.value? 'b' with
    | some list, _ =>
      withEach options.operands fun bytes =>
        (textLines bytes).forM fun line =>
          if line.contains separator then
            printLine (Text.join [separator]
              (atPlaces (placeRanges list) (Text.splitAll separator line)))
          else if options.has 's' then pure ()
          else printLine line
    | none, some list =>
      withEach options.operands fun bytes =>
        bytes.lines.forM fun line =>
          print (atPlaces (placeRanges list) (line.filter (· != Bytes.lineFeed)) ++
            [Bytes.lineFeed])
    | none, none => misuse "you must specify a list of bytes, characters, or fields"

/-! ## Dumps and copies -/

/-- A byte as characters show it in a dump. -/
def dumpedChar (byte : UInt8) : Text :=
  let code := byte.toNat
  let octal := Nat.toDigits 8 code
  match code with
  | 0 => "\\0"
  | 7 => "\\a"
  | 8 => "\\b"
  | 9 => "\\t"
  | 10 => "\\n"
  | 11 => "\\v"
  | 12 => "\\f"
  | 13 => "\\r"
  | _ =>
    if 0x20 ≤ code ∧ code < 0x7F then [Char.ofNat code]
    else List.replicate (3 - octal.length) '0' ++ octal

/-- A number with a number of digits of a base. -/
def dumpedNumber (base width value : Nat) : Text :=
  let digits := Nat.toDigits base value
  List.replicate (width - digits.length) '0' ++ digits

def dumpedRow (format : Text) (row : Bytes) : Text :=
  let word (pair : List UInt8) : Nat :=
    (pair.getD 0 0).toNat + 256 * (pair.getD 1 0).toNat
  let signed (code : Nat) : Text :=
    if code < 128 then Text.ofNat code else '-' :: Text.ofNat (256 - code)
  let pairs : List (List UInt8) :=
    (List.range ((row.length + 1) / 2)).map fun place => (row.drop (2 * place)).take 2
  match Text.toString format with
  | "c" => row.flatMap fun byte => " " ++ Text.padLeft 3 (dumpedChar byte)
  | "x1" => row.flatMap fun byte => " " ++ dumpedNumber 16 2 byte.toNat
  | "o1" => row.flatMap fun byte => " " ++ dumpedNumber 8 3 byte.toNat
  | "u1" => row.flatMap fun byte => " " ++ Text.padLeft 3 (Text.ofNat byte.toNat)
  | "d1" => row.flatMap fun byte => " " ++ Text.padLeft 4 (signed byte.toNat)
  | "x2" => pairs.flatMap fun pair => " " ++ dumpedNumber 16 4 (word pair)
  | _ => pairs.flatMap fun pair => " " ++ dumpedNumber 8 6 (word pair)

/-- The rows of bytes with the places where they begin. -/
def dumpRows (bytes : Bytes) : List (Nat × Bytes) :=
  (List.range ((bytes.length + 15) / 16)).map fun row => (16 * row, (bytes.drop (16 * row)).take 16)

/-- The lines of a dump. A row that is the same as the one before is told of once. -/
def dumpLines (format : Text) (address : Nat → Text) :
    Option Bytes → (told : Bool) → List (Nat × Bytes) → List Text
  | _, _, [] => []
  | before, told, (place, row) :: others =>
    if before = some row ∧ row.length = 16 ∧ !others.isEmpty then
      let rest := dumpLines format address before true others
      if told then rest else "*".toList :: rest
    else
      (address place ++ dumpedRow format row) :: dumpLines format address (some row) false others

/-- Prints a dump of files. -/
def od : Utility Unit :=
  withOptions "cbxov" "Atjw" fun options => do
    let format : Text :=
      if options.has 'c' then "c"
      else if options.has 'b' then "o1"
      else if options.has 'x' then "x2"
      else (options.value? 't').getD "o2"
    let address (place : Nat) : Text :=
      match options.value? 'A' with
      | some ['n'] => []
      | some ['d'] => dumpedNumber 10 7 place
      | some ['x'] => dumpedNumber 16 6 place
      | _ => dumpedNumber 8 7 place
    let mut bytes : Bytes := []
    for path in if options.operands.isEmpty then [['-']] else options.operands do
      match ← readPath path with
      | .ok more => bytes := bytes ++ more
      | .error reason => complain (pathComplaint path reason)
    printText (Text.unlines (dumpLines format address none (options.has 'v') (dumpRows bytes)))
    if (address 0) != [] && (← get).status = 0 then printLine (address bytes.length)

/-- The number of bytes that an argument names, with a unit. -/
def sizeOf? (text : Text) : Option Nat :=
  let unit : Option Nat :=
    match Text.toString (text.dropWhile Char.isDigit) with
    | "" | "c" => some 1
    | "b" => some 512
    | "k" | "K" => some 1024
    | "kB" => some 1000
    | "M" => some 1048576
    | _ => none
  match unit, natural? (text.takeWhile Char.isDigit) with
  | some unit, some number => some (unit * number)
  | _, _ => none

/-- Copies blocks of bytes. -/
def dd : Utility Unit := do
  let settings := (← arguments).filterMap (Text.splitOnce "=")
  let setting (name : Text) : Option Text := settings.lookup name
  let number (name : Text) (otherwise : Nat) : Nat :=
    ((setting name).bind sizeOf?).getD otherwise
  let size := number "bs" 512
  let source := (setting "if").getD ['-']
  let wanted := (setting "count").bind sizeOf?
  let read ← match source == "/dev/zero".toList, wanted with
    | true, some count => pure (.ok (List.replicate (count * size) 0))
    | _, _ => readPath source
  match read with
  | .error reason => complain ("failed to open " ++ quoted source ++ ": " ++ reason)
  | .ok all =>
    let start := all.drop (number "skip" 0 * size)
    let bytes := match wanted with
      | some count => start.take (count * size)
      | none => start
    if isInput source && wanted.isSome then
      modify ({ · with uses := .first (number "skip" 0 * size + bytes.length) })
    match setting "of" with
    | none => print bytes
    | some path =>
      let _ ← perform (FileTree.writeFile path bytes) fun error =>
        "failed to open " ++ quoted path ++ ": " ++ error.description
    if setting "status" != some "none" && (← get).status = 0 then
      let full := Text.ofNat (bytes.length / size)
      let parted : Text := if bytes.length % size = 0 then "0" else "1"
      if setting "status" == some "noxfer" then
        tell (full ++ "+" ++ parted ++ " records in\n" ++ full ++ "+" ++ parted ++
          " records out\n")
      else
        tell (full ++ "+" ++ parted ++ " records in\n" ++ full ++ "+" ++ parted ++
          " records out\n" ++ Text.ofNat bytes.length ++ " bytes copied, 0 s, 0 kB/s\n")

end CompiledViews.Utility
