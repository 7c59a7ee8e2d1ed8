import CompiledViews.Settings.Basic
import CompiledViews.Text.Blank
import CompiledViews.Toolchain.Paths
import CompiledViews.Toolchain.Support

/-!
# Commands

The command lines of the tools.
-/

namespace CompiledViews

/-- A tool to be run, with its arguments and the directory it is run in. -/
structure Command where
  program : Text
  arguments : List Text
  directory : Option Text
deriving DecidableEq, Repr

/-- The command as it is shown. -/
def Command.shown (command : Command) : Text := Text.join " " (command.program :: command.arguments)

/-- The tools of a run. -/
inductive Tool where
  | kotlinc
  | javap
  | dex
  | dexdump
  | push
  | dex2oat
  | oatdump
  | java
deriving DecidableEq, Repr

namespace Tool

/-- All tools. -/
def all : List Tool := [kotlinc, javap, dex, dexdump, push, dex2oat, oatdump, java]

end Tool

/-- The tools as they are run in a scratch directory. -/
structure Toolchain where
  paths : ToolPaths
  directory : Text
deriving DecidableEq, Repr

namespace Toolchain

/-- The file that DEX code is written to. -/
def dexFile : Text := "classes.dex"

/-- The DEX code as it is on the device. -/
def deviceDex : Text := "/sdcard/classes.dex"

/-- The native code as it is on the device. -/
def deviceOat : Text := "/sdcard/classes.oat"

/-- The flags that leave out checks for callers in Java. -/
def kotlinOnlyFlags : List Text :=
  ["-Xno-param-assertions", "-Xno-call-assertions", "-Xno-receiver-assertions"]

def program (toolchain : Toolchain) : Tool → Text
  | .kotlinc => toolchain.paths.kotlinc
  | .javap => "javap"
  | .dex | .java => "java"
  | .dexdump => toolchain.paths.dexdump
  | .push | .dex2oat | .oatdump => toolchain.paths.adb

/-- A tool that is run in the scratch directory, with several groups of arguments. -/
def command (toolchain : Toolchain) (tool : Tool) (arguments : List (List Text)) : Command :=
  ⟨toolchain.program tool, arguments.flatten, some toolchain.directory⟩

def kotlinc (toolchain : Toolchain) (settings : Settings) : Command :=
  toolchain.command .kotlinc [
    ["-Xmulti-platform", "-classpath", toolchain.paths.classpath],
    if settings.kotlinOnlyConsumers then kotlinOnlyFlags else [],
    Text.words settings.compilerFlags,
    (sourceFile :: supportFiles.map (·.1)).map (Path.join toolchain.directory)]

/-- The tool that prints byte code. -/
def javap (toolchain : Toolchain) (classFiles : List Text) : Command :=
  toolchain.command .javap [["-p", "-l", "-c"], classFiles]

/-- The tool that makes DEX code and optimizes it by the rules. -/
def r8 (toolchain : Toolchain) (settings : Settings) (classFiles : List Text) : Command :=
  toolchain.command .dex [
    ["-classpath", toolchain.paths.d8, "com.android.tools.r8.R8"],
    ["--min-api", Text.ofNat settings.minApiLevel, "--pg-conf", rulesFile],
    ["--output", ".", "--lib", toolchain.paths.platform],
    classFiles, toolchain.paths.kotlinLibraries]

/-- The tool that makes DEX code as it is. -/
def d8 (toolchain : Toolchain) (settings : Settings) (classFiles : List Text) : Command :=
  toolchain.command .dex [
    ["-classpath", toolchain.paths.d8, "com.android.tools.r8.D8"],
    ["--min-api", Text.ofNat settings.minApiLevel],
    ["--output", ".", "--lib", toolchain.paths.platform],
    toolchain.paths.kotlinLibraries.flatMap fun library => ["--lib", library], classFiles]

/-- The tool that makes DEX code. -/
def dex (toolchain : Toolchain) (settings : Settings) (classFiles : List Text) : Command :=
  if settings.optimize then toolchain.r8 settings classFiles else toolchain.d8 settings classFiles

/-- The tool that prints DEX code. -/
def dexdump (toolchain : Toolchain) : Command :=
  toolchain.command .dexdump [["-d", dexFile]]

/-- The tool that copies DEX code to the device. -/
def push (toolchain : Toolchain) : Command :=
  toolchain.command .push [["push", dexFile, deviceDex]]

/-- The tool that compiles DEX code on the device. -/
def dex2oat (toolchain : Toolchain) : Command :=
  toolchain.command .dex2oat
    [["shell", "dex2oat", "--dex-file=" ++ deviceDex, "--oat-file=" ++ deviceOat]]

/-- The tool that prints native code on the device. -/
def oatdump (toolchain : Toolchain) : Command :=
  toolchain.command .oatdump [["shell", "oatdump", "--oat-file=" ++ deviceOat]]

/-- The compiled program itself. -/
def java (toolchain : Toolchain) : Command :=
  toolchain.command .java [["-classpath", toolchain.paths.classpath ++ ":.", mainClass]]

end Toolchain

end CompiledViews
