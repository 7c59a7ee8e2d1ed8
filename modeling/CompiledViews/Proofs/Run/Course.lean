import CompiledViews.Proofs.Run.Deliveries
import CompiledViews.Run.Pipeline

/-!
# The course of a run

Many properties of a run are closed under its parts: what holds of all that may come after a part
holds of the part and what comes after it. For such a property the pipeline is gone through once,
here; all that is left to be shown of it is that it is closed.
-/

namespace CompiledViews

/-- The messages that may come with the last status, of which one tells of success. -/
def Ending (success message : Text) : Prop :=
  message = success ∨ Text.startsWith message "Error" = true

/-- A verdict that comes to a possible last status. -/
def Verdict.Fits (success : Text) : Verdict → Prop
  | .ok status => Ending success status
  | .error _ => True

theorem Dump.Format.content_ne_empty (format : Dump.Format) (text : Text) :
    format.content text ≠ .empty := by
  unfold content
  split <;> simp

namespace Task

/-- Only the success of a tool leads on, and only with the exit code zero. -/
theorem holds_of_outcome {holds : Task → Prop} (outcome : Outcome) {stopped : Task}
    {goOn failed : ToolResult → Task} (ifStopped : holds stopped)
    (ifSuccess : ∀ output, outcome = .ok ⟨0, output⟩ → holds (goOn ⟨0, output⟩))
    (ifFailed : ∀ result, holds (failed result)) :
    holds (match stageResult? outcome with
      | none => stopped
      | some result => if result.success then goOn result else failed result) := by
  cases outcome with
  | ok result =>
      rcases result with ⟨exitCode, output⟩
      dsimp only [stageResult?]
      split
      case isTrue success =>
        obtain rfl : exitCode = 0 := by simpa [ToolResult.success] using success
        exact ifSuccess output rfl
      case isFalse _ => exact ifFailed _
  | error error =>
      cases error with
      | cancelled => exact ifStopped
      | _ => exact ifFailed _

/-- The last status of a verdict is all that it comes to, but for the message of an error. -/
theorem holds_conclude {holds : Task → Prop} {next : Task} (verdict : Verdict)
    (log : ∀ text next, holds next → holds (.log text true next))
    (last : ∀ message, holds (.skipToEnd message next)) : holds (conclude verdict next) := by
  cases verdict with
  | ok status => exact last status
  | error error =>
      cases error with
      | cancelled => exact last _
      | scratch path error => exact log _ _ (last _)

end Task

namespace Pipeline

/-- The program of a tool. -/
def programOf (pipeline : Pipeline) : Tool → Text
  | .kotlinc => pipeline.paths.kotlinc
  | .javap => "javap"
  | .dex | .java => "java"
  | .dexdump => pipeline.paths.dexdump
  | .push | .dex2oat | .oatdump => pipeline.paths.adb

/-- The first arguments of a tool, which tell what its program is to do. -/
def openingOf (pipeline : Pipeline) : Tool → List Text
  | .kotlinc => ["-Xmulti-platform", "-classpath", pipeline.paths.classpath]
  | .javap => ["-p", "-l", "-c"]
  | .dex => ["-classpath", pipeline.paths.d8,
      if pipeline.settings.optimize then "com.android.tools.r8.R8" else "com.android.tools.r8.D8"]
  | .dexdump => ["-d", "classes.dex"]
  | .push => ["push", "classes.dex", "/sdcard/classes.dex"]
  | .dex2oat => ["shell", "dex2oat", "--dex-file=/sdcard/classes.dex",
      "--oat-file=/sdcard/classes.oat"]
  | .oatdump => ["shell", "oatdump", "--oat-file=/sdcard/classes.oat"]
  | .java => ["-classpath", pipeline.paths.classpath ++ ":.", "KotlinExplorerKt"]

/-- A command that runs a tool in the scratch directory. -/
structure IsCommand (pipeline : Pipeline) (tool : Tool) (command : Command) : Prop where
  program_eq : command.program = pipeline.programOf tool
  opening : pipeline.openingOf tool <+: command.arguments
  directory_eq : command.directory = some pipeline.directory

section commands

variable {pipeline : Pipeline}

theorem isCommand_kotlinc :
    pipeline.IsCommand .kotlinc (pipeline.toolchain.kotlinc pipeline.settings) :=
  ⟨rfl, List.prefix_append _ _, rfl⟩

theorem isCommand_javap (classFiles : List Text) :
    pipeline.IsCommand .javap (pipeline.toolchain.javap classFiles) :=
  ⟨rfl, List.prefix_append _ _, rfl⟩

theorem isCommand_dex (classFiles : List Text) :
    pipeline.IsCommand .dex (pipeline.toolchain.dex pipeline.settings classFiles) := by
  unfold Toolchain.dex
  split
  case isTrue optimize =>
    refine ⟨rfl, ?_, rfl⟩
    rw [openingOf, if_pos optimize]
    exact List.prefix_append _ _
  case isFalse plain =>
    refine ⟨rfl, ?_, rfl⟩
    rw [openingOf, if_neg plain]
    exact List.prefix_append _ _

theorem isCommand_dexdump : pipeline.IsCommand .dexdump pipeline.toolchain.dexdump :=
  ⟨rfl, List.prefix_append _ _, rfl⟩

theorem isCommand_push : pipeline.IsCommand .push pipeline.toolchain.push :=
  ⟨rfl, List.prefix_append _ _, rfl⟩

theorem isCommand_dex2oat : pipeline.IsCommand .dex2oat pipeline.toolchain.dex2oat :=
  ⟨rfl, List.prefix_append _ _, rfl⟩

theorem isCommand_oatdump : pipeline.IsCommand .oatdump pipeline.toolchain.oatdump :=
  ⟨rfl, List.prefix_append _ _, rfl⟩

theorem isCommand_java : pipeline.IsCommand .java pipeline.toolchain.java :=
  ⟨rfl, List.prefix_append _ _, rfl⟩

end commands

/-- A property of tasks that holds of a part of a run whenever it holds of all that may come next,
and of what comes after every verdict that fits a success. Tools are run by their commands; those
that make dumps are left out. -/
structure Closed (pipeline : Pipeline) (success : Text) (verdict : Verdict → Task)
    (holds : Task → Prop) : Prop where
  verdicts {final : Verdict} (fits : final.Fits success) : holds (verdict final)
  log {text : Text} {isError : Bool} {next : Task} (goesOn : holds next) :
    holds (.log text isError next)
  advance {message : Text} {count : Nat} {next : Task} (goesOn : holds next) :
    holds (.advance message count next)
  change {action : FileAction Unit} {next : Option OsError → Task}
    (goesOn : ∀ error, holds (next error)) : holds (.change action next)
  call {tool : Tool} {command : Command} {next : Outcome → Task}
    (noDump : tool ∉ View.all.map View.tool) (isCommand : pipeline.IsCommand tool command)
    (goesOn : ∀ outcome, holds (next outcome)) : holds (.call tool command next)

/-- A property of tasks that holds of the parts of a run that shows views in the same way. A dump is
made by a thread of its own, or shown by the main thread. -/
structure ClosedWithViews (pipeline : Pipeline) (verdict : Verdict → Task)
    (holds : Task → Prop) : Prop extends Closed pipeline "Ready" verdict holds where
  look {next : FileTree → Task} (goesOn : ∀ tree, holds (next tree)) : holds (.look next)
  dump (view : View) {command : Command} {done failure : Text} {next : Task}
    (computed : pipeline.settings.computes view = true)
    (isCommand : pipeline.IsCommand view.tool command) (goesOn : holds next) :
    holds (.spawn (.dump view.tool command view view.format done failure) next)
  shown (view : View) {command : Command} {message failure : Text} {next : Task}
    (computed : pipeline.settings.computes view = true)
    (isCommand : pipeline.IsCommand view.tool command) (fits : Ending "Ready" failure)
    (goesOn : holds next) :
    holds (.stage view.tool command failure verdict fun output =>
      .pause (.deliver view (view.format.content output) (.advance message 1 next)))

section closed

variable {pipeline : Pipeline} {success : Text} {verdict : Verdict → Task} {holds : Task → Prop}
  {next : Task}

theorem Closed.stage (closed : pipeline.Closed success verdict holds) {tool : Tool}
    {command : Command} {failure : Text} {goOn : Text → Task}
    (noDump : tool ∉ View.all.map View.tool) (isCommand : pipeline.IsCommand tool command)
    (fits : Ending success failure) (goesOn : ∀ output, holds (goOn output)) :
    holds (.stage tool command failure verdict goOn) := by
  apply closed.call noDump isCommand
  intro outcome
  apply Task.holds_of_outcome outcome
  · exact closed.verdicts trivial
  · exact fun output _ => goesOn output
  · exact fun result => closed.log (closed.verdicts fits)

theorem Closed.compile (closed : pipeline.Closed success verdict holds) (source : Text)
    (goesOn : holds next) : holds (pipeline.compile source verdict next) := by
  apply closed.change
  intro error
  cases error with
  | some error => exact closed.verdicts trivial
  | none =>
      apply closed.call (by decide) isCommand_kotlinc
      intro outcome
      apply Task.holds_of_outcome outcome
      · exact closed.verdicts trivial
      · exact fun _ _ => goesOn
      · exact fun result => closed.log (closed.verdicts (.inr (by decide)))

/-- What is closed under the parts of a run holds of the run that runs the program. -/
theorem Closed.executeThen (closed : pipeline.Closed "Run completed" verdict holds)
    (source : Text) : holds (pipeline.executeThen source verdict) := by
  apply closed.compile
  apply closed.advance
  apply closed.call (by decide) isCommand_java
  intro outcome
  split
  · exact closed.verdicts trivial
  · apply closed.log
    apply closed.verdicts
    split
    · exact .inl rfl
    · exact .inr (by decide)

end closed

section closedWithViews

variable {pipeline : Pipeline} {verdict : Verdict → Task} {holds : Task → Prop} {next : Task}
  (closed : pipeline.ClosedWithViews verdict holds)

include closed

theorem ClosedWithViews.forView (view : View) {command : Command} {done failure : Text}
    (isCommand : pipeline.IsCommand view.tool command) (goesOn : holds next) :
    holds (.forView pipeline.settings view
      (.dump view.tool command view view.format done failure) next) := by
  unfold Task.forView
  split
  case isTrue computed => exact closed.dump view computed isCommand goesOn
  case isFalse _ => exact closed.advance goesOn

theorem ClosedWithViews.disassembleNative (computed : pipeline.settings.computes .oat = true) :
    holds (pipeline.disassembleNative verdict) := by
  apply closed.stage (by decide) isCommand_push (.inr (by decide))
  intro _
  apply closed.advance
  apply closed.stage (by decide) isCommand_dex2oat (.inr (by decide))
  intro _
  apply closed.advance
  apply closed.shown .oat computed isCommand_oatdump (.inr (by decide))
  exact closed.verdicts (.inl rfl)

theorem ClosedWithViews.disassembleDex (classFiles : List Text) :
    holds (pipeline.disassembleDex classFiles verdict) := by
  apply closed.change
  intro error
  cases error with
  | some error => exact closed.verdicts trivial
  | none =>
      apply closed.stage (by decide) (isCommand_dex classFiles) (.inr (by decide))
      intro _
      apply closed.advance
      apply closed.forView .dex isCommand_dexdump
      split
      case isTrue computed => exact closed.disassembleNative computed
      case isFalse _ => exact closed.verdicts (.inl rfl)

/-- What is closed under the parts of a run that shows views holds of that run. -/
theorem ClosedWithViews.disassembleThen (source : Text) :
    holds (pipeline.disassembleThen source verdict) := by
  apply closed.compile
  apply closed.advance
  apply closed.look
  intro tree
  exact closed.forView .byteCode (isCommand_javap _) (closed.disassembleDex _)

end closedWithViews

end Pipeline

end CompiledViews
