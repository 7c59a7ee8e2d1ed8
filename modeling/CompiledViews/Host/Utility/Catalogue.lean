import CompiledViews.Host.Utility.Calendar
import CompiledViews.Host.Utility.Search
import CompiledViews.Host.Utility.Walk

/-!
# The catalogue of utilities

The utilities that every host has, by their names.
-/

namespace CompiledViews.Utility

/-- The utilities with their names. -/
def catalogue : List (Text × Utility Unit) := [
  ⟨"true", pure ()⟩,
  ⟨"false", fail 1⟩,
  ⟨"echo", echo⟩,
  ⟨"printf", printf⟩,
  ⟨"cat", cat⟩,
  ⟨"tee", tee⟩,
  ⟨"head", head⟩,
  ⟨"tail", tail⟩,
  ⟨"wc", wc⟩,
  ⟨"tr", tr⟩,
  ⟨"rev", rev⟩,
  ⟨"tac", tac⟩,
  ⟨"nl", nl⟩,
  ⟨"sort", sort⟩,
  ⟨"uniq", uniq⟩,
  ⟨"cut", cut⟩,
  ⟨"od", od⟩,
  ⟨"dd", dd⟩,
  ⟨"grep", grep⟩,
  ⟨"sed", sed⟩,
  ⟨"seq", seq⟩,
  ⟨"sleep", sleep⟩,
  ⟨"expr", expr⟩,
  ⟨"test", test false⟩,
  ⟨"[", test true⟩,
  ⟨"yes", yes⟩,
  ⟨"printenv", printenv⟩,
  ⟨"uname", uname⟩,
  ⟨"whoami", whoami "root"⟩,
  ⟨"id", whoami "0"⟩,
  ⟨"tty", tty⟩,
  ⟨"which", which⟩,
  ⟨"basename", basename⟩,
  ⟨"dirname", dirname⟩,
  ⟨"pwd", pwd⟩,
  ⟨"readlink", readlink⟩,
  ⟨"realpath", realpath⟩,
  ⟨"date", date⟩,
  ⟨"find", find⟩,
  ⟨"mktemp", mktemp⟩,
  ⟨"sync", pure ()⟩,
  ⟨"ls", ls⟩,
  ⟨"touch", touch⟩,
  ⟨"mkdir", mkdir⟩,
  ⟨"rmdir", rmdir⟩,
  ⟨"rm", rm⟩,
  ⟨"cp", cp⟩,
  ⟨"mv", mv⟩,
  ⟨"ln", ln⟩,
  ⟨"chmod", chmod⟩]

/-- The utilities that print as they go. The complaints of all others come before what they print.
-/
def immediate : List Text := ["cat", "tee", "dd"]

/-- What comes of the utility with a name. -/
def run? (name : Text) (call : UtilityCall) : Option UtilityRun :=
  (catalogue.lookup name).map fun utility =>
    let run := utility.runOn call
    let isComplaint : UtilityOutput → Bool
      | .bytes .diagnostics _ => true
      | _ => false
    let printed := run.printed.reverse
    if immediate.contains name then { run with printed }
    else
      { run with
        printed := printed.filter isComplaint ++ printed.filter (!isComplaint ·) }

end CompiledViews.Utility
