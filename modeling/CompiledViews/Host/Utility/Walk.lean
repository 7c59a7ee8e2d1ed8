import CompiledViews.Host.Shell.Pattern
import CompiledViews.Host.Utility.Files

/-!
# Walks through directories

A walk finds all that stands below paths, each directory before what is in it, and tells what
fulfils all of some conditions.
-/

namespace CompiledViews.Utility

/-- A condition of what is found. -/
inductive WalkTest where
  | name (pattern : Shell.Pattern)
  | path (pattern : Shell.Pattern)
  | kind (letter : Char)
  | empty

namespace WalkTest

/-- Whether what is found at a path fulfils the condition. -/
def holds (test : WalkTest) (path : Text) (node : Node) : Bool :=
  match test, node with
  | name pattern, _ => pattern.accepts (Text.afterLast '/' (trimmedPath path))
  | WalkTest.path pattern, _ => pattern.accepts path
  | kind 'd', .directory _ | kind 'f', .file _ | kind 'l', .link _ => true
  | empty, .directory entries => entries.isEmpty
  | empty, .file content => content.isEmpty
  | _, _ => false

end WalkTest

/-- What a walk is asked for: where it begins, how deep it goes and from which depth on it tells
what it finds, and conditions, each one with whether it has to hold. -/
structure WalkCall where
  paths : List Text
  deepest : Nat
  least : Nat
  tests : List (WalkTest × Bool)

namespace WalkCall

/-- The call with one more condition. -/
def withTest (call : WalkCall) (test : WalkTest) (wanted : Bool) : WalkCall :=
  { call with tests := call.tests ++ [(test, wanted)] }

/-- The call with the conditions of arguments, or what is wrong with them. -/
def readTests : (limit : Nat) → (wanted : Bool) → List Text → WalkCall → Except Text WalkCall
  | 0, _, _, call => .ok call
  | _, _, [], call => .ok call
  | limit + 1, wanted, word :: others, call =>
    let pattern (text : Text) : Shell.Pattern := .read (text.map (·, false))
    match Text.toString word, others with
    | "-name", text :: rest =>
      readTests limit true rest (call.withTest (.name (pattern text)) wanted)
    | "-path", text :: rest =>
      readTests limit true rest (call.withTest (.path (pattern text)) wanted)
    | "-type", [letter] :: rest => readTests limit true rest (call.withTest (.kind letter) wanted)
    | "-empty", rest => readTests limit true rest (call.withTest .empty wanted)
    | "-maxdepth", count :: rest =>
      readTests limit true rest { call with deepest := (natural? count).getD 0 }
    | "-mindepth", count :: rest =>
      readTests limit true rest { call with least := (natural? count).getD 0 }
    | "-print", rest | "-a", rest => readTests limit true rest call
    | "!", rest | "-not", rest => readTests limit (!wanted) rest call
    | _, [] =>
      if (["-name", "-path", "-type", "-maxdepth", "-mindepth"] : List Text).contains word then
        .error ("missing argument to \x60" ++ word ++ "\x27")
      else .error ("unknown predicate \x60" ++ word ++ "\x27")
    | _, _ => .error ("unknown predicate \x60" ++ word ++ "\x27")

def read (arguments : List Text) : Except Text WalkCall :=
  let paths := arguments.takeWhile fun (word : Text) => word.head? != some '-' && word != ['!']
  readTests (arguments.length + 1) true (arguments.drop paths.length)
    ⟨if paths.isEmpty then [['.']] else paths, 1000, 0, []⟩

/-- The paths from one on that fulfil all conditions. -/
def found (call : WalkCall) : (limit : Nat) → (depth : Nat) → Text → Node → List Text
  | 0, _, _, _ => []
  | limit + 1, depth, path, node =>
    let isTold := call.least ≤ depth && call.tests.all fun (test, wanted) =>
      test.holds path node == wanted
    let below : List Text :=
      match node with
      | .directory entries =>
        if depth < call.deepest then
          entries.flatMap fun (name, child) =>
            call.found limit (depth + 1) (Path.join path name) child
        else []
      | _ => []
    (if isTold then [path] else []) ++ below

end WalkCall

/-- How deep a walk goes at most. -/
def walkLimit : Nat := 200

/-- Prints the paths of what stands below paths. -/
def find : Utility Unit := do
  match WalkCall.read (← arguments) with
  | .error complaint => complain complaint
  | .ok call =>
    for path in call.paths do
      match entryAt (← get).files path, (← get).files.node? path with
      | .ok (_, node), _ => printText (Text.unlines (call.found walkLimit 0 path node))
      | .error _, some node => printText (Text.unlines (call.found walkLimit 0 path node))
      | .error error, none => complain (quoted path ++ ": " ++ error.description)

/-- Makes a file or directory with a name of its own, and prints its path. -/
def mktemp : Utility Unit :=
  withOptions "dqu" "p" fun options => do
    let files := (← get).files
    let template := (options.operands.head?).getD "/tmp/tmp.XXXXXXXXXX"
    let count := template.length - (template.reverse.dropWhile (· == 'X')).length
    if count < 3 then complain ("too few X\x27s in template " ++ quoted template)
    else
      let named (number : Nat) : Text :=
        template.take (template.length - count) ++
          Text.replaceChar ' ' '0' (Text.padLeft count (Text.ofNat number))
      let path := (((List.range 1000).map named).find? (!files.present ·)).getD (named 0)
      let make : FileAction Unit :=
        if options.has 'd' then FileTree.makeDirectory path else FileTree.writeFile path []
      let kind : Text := if options.has 'd' then "directory" else "file"
      let isMade ← perform make fun error =>
        "failed to create " ++ kind ++ " via template " ++ quoted template ++ ": " ++
          error.description
      if isMade then printLine path

end CompiledViews.Utility
