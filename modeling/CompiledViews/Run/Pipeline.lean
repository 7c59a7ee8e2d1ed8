import CompiledViews.Dump.Content
import CompiledViews.Run.Task
import CompiledViews.Toolchain.Scratch

/-!
# The pipeline

What is done to show or to run a source. The source is compiled; for the views its class files are
dumped and made into DEX code, that is dumped, and it is compiled and dumped on a device. The first
two dumps are made by threads of their own while the main thread goes on. A step that fails ends
the run, whose last status comes when all threads have ended.
-/

namespace CompiledViews

/-- What a run works with: the tools, the scratch directory, and the settings. -/
structure Pipeline where
  paths : ToolPaths
  directory : Text
  settings : Settings
deriving DecidableEq, Repr

/-- Why a run ends early without a tool having failed: the scratch directory at a path cannot be
written, or the run is cancelled. -/
inductive RunError where
  | scratch (path : Text) (error : OsError)
  | cancelled
deriving DecidableEq, Repr

/-- The error in words. -/
def RunError.message : RunError → Text
  | scratch path error => "scratch directory " ++ path ++ ": " ++ error.message
  | cancelled => "cancelled"

/-- What the main thread comes to: its last status, or an error. -/
abbrev Verdict := Except RunError Text

/-- The steps of a run that shows the views. -/
def disassemblySteps : Nat := 7

/-- The steps of a run that runs the program. -/
def runSteps : Nat := 2

namespace Task

/-- Runs a tool of a stage. If the run is cancelled it comes to that; if the tool fails its output
is an error, and the verdict is a given status. -/
def stage (tool : Tool) (command : Command) (failure : Text) (verdict : Verdict → Task)
    (next : Text → Task) : Task :=
  .call tool command fun outcome =>
    match stageResult? outcome with
    | none => verdict (.error .cancelled)
    | some result =>
      if result.success then next result.output
      else .log result.output true (verdict (.ok failure))

/-- The thread that makes a dump, reads it, and counts one step. -/
def dump (tool : Tool) (command : Command) (view : View) (format : Dump.Format)
    (success failure : Text) : Task :=
  .call tool command fun outcome =>
    match stageResult? outcome with
    | none => .done
    | some result =>
      if result.success then
        .pause (.deliver view (format.content result.output) (.advance success 1 .done))
      else .log result.output true (.advance failure 1 .done)

/-- A part of the run for a view: a thread of its own if the view is computed, else only its
step. -/
def forView (settings : Settings) (view : View) (thread next : Task) : Task :=
  if settings.computes view then .spawn thread next else .advance [] 1 next

/-- The last status of a verdict, with the error before it if it is one. -/
def conclude (verdict : Verdict) (next : Task) : Task :=
  match verdict with
  | .ok status => .skipToEnd status next
  | .error .cancelled => .skipToEnd "Error: cancelled" next
  | .error error =>
    .log error.message true (.skipToEnd ("Error: " ++ error.message) next)

/-- The end of a run: threads are stopped if it is cancelled and waited for, and the last status is
reported. A run that is cancelled while it waits comes to that. -/
def finishRun (verdict : Verdict) (next : Task) : Task :=
  .askCancelled fun cancelledBefore =>
    let wait := .awaitAll (.askCancelled fun cancelled =>
      let final : Verdict :=
        match verdict with
        | .ok status => if cancelled then .error .cancelled else .ok status
        | .error error => .error error
      conclude final (.awaitAll next))
    if cancelledBefore then .abortAll wait else wait

/-- Empty contents for views that have got none. -/
def fillEmpty : List View → Task
  | [] => .done
  | view :: views => .deliver view .empty (fillEmpty views)

end Task

namespace Pipeline

/-- The pipeline for a scratch directory, which need not be there yet. -/
def new (tree : FileTree) (paths : ToolPaths) (directory : Text) (settings : Settings) :
    Pipeline :=
  ⟨paths, tree.canonical directory, settings⟩

def toolchain (pipeline : Pipeline) : Toolchain := ⟨pipeline.paths, pipeline.directory⟩

/-- Prepares the scratch directory and compiles the source. Messages of the compiler name files
without the directory. -/
def compile (pipeline : Pipeline) (source : Text) (verdict : Verdict → Task) (next : Task) :
    Task :=
  .change (Toolchain.prepareScratch pipeline.directory source) fun
    | some error => verdict (.error (.scratch pipeline.directory error))
    | none =>
      .call .kotlinc (pipeline.toolchain.kotlinc pipeline.settings) fun outcome =>
        match stageResult? outcome with
        | none => verdict (.error .cancelled)
        | some result =>
          if result.success then next
          else
            .log (Toolchain.stripDirectory pipeline.directory result.output) true
              (verdict (.ok "Error compiling Kotlin"))

/-- The last part of a run that shows the views: native code, made on a device. -/
def disassembleNative (pipeline : Pipeline) (verdict : Verdict → Task) : Task :=
  .stage .push pipeline.toolchain.push "Error pushing code to device" verdict fun _ =>
  .advance "Pushed code to device…" 1 <|
  .stage .dex2oat pipeline.toolchain.dex2oat "Error compiling OAT" verdict fun _ =>
  .advance "Disassembling OAT…" 1 <|
  .stage .oatdump pipeline.toolchain.oatdump "Error creating oat dump" verdict fun output =>
  .pause <|
  .deliver .oat (Dump.Format.oatdump.content output) <|
  .advance "Created oat dump" 1 (verdict (.ok "Ready"))

/-- The middle part of a run that shows the views: DEX code, made from class files. -/
def disassembleDex (pipeline : Pipeline) (classFiles : List Text) (verdict : Verdict → Task) :
    Task :=
  let settings := pipeline.settings
  let rulesPath := Path.join pipeline.directory Toolchain.rulesFile
  let rules := Toolchain.r8Rules settings.keepEverything settings.r8Rules
  .change (FileTree.writeFile rulesPath (Text.utf8 rules)) fun
    | some error => verdict (.error (.scratch rulesPath error))
    | none =>
      .stage .dex (pipeline.toolchain.dex settings classFiles) "Error creating DEX" verdict fun _ =>
      .advance (if settings.optimize then "Optimized DEX with R8" else "Compiled DEX with D8") 1 <|
      .forView settings .dex
        (.dump .dexdump pipeline.toolchain.dexdump .dex .dexdump "Created DEX dump"
          "Error creating DEX dump") <|
      if settings.computes .oat then pipeline.disassembleNative verdict else verdict (.ok "Ready")

/-- A run that shows the views, up to its verdict. -/
def disassembleThen (pipeline : Pipeline) (source : Text) (verdict : Verdict → Task) : Task :=
  pipeline.compile source verdict <|
  .advance "Kotlin compiled" 1 <|
  .look fun tree =>
    let classFiles := Toolchain.classFiles tree pipeline.directory
    .forView pipeline.settings .byteCode
      (.dump .javap (pipeline.toolchain.javap classFiles) .byteCode .javap
        "Disassembled Java ByteCode" "Error Disassembling Java ByteCode") <|
    pipeline.disassembleDex classFiles verdict

/-- A run that shows the views. -/
def disassemble (pipeline : Pipeline) (source : Text) : Task :=
  .update "Compiling and disassembling…" <|
  pipeline.disassembleThen source fun verdict =>
    Task.finishRun verdict (Task.fillEmpty pipeline.settings.computedViews)

/-- A run that runs the program, up to its verdict. -/
def executeThen (pipeline : Pipeline) (source : Text) (verdict : Verdict → Task) : Task :=
  pipeline.compile source verdict <|
  .advance "Running…" 1 <|
  .call .java pipeline.toolchain.java fun outcome =>
    match stageResult? outcome with
    | none => verdict (.error .cancelled)
    | some result =>
      .log result.output false
        (verdict (.ok (if result.success then "Run completed" else "Error running code")))

def execute (pipeline : Pipeline) (source : Text) : Task :=
  .update "Compiling Kotlin…" <|
  pipeline.executeThen source fun verdict => Task.finishRun verdict .done

end Pipeline

end CompiledViews
