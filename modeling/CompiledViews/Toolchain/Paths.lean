import CompiledViews.FileTree.Basic
import CompiledViews.Text.Order

/-!
# Paths of tools

Where the tools and libraries are, below the directory of the Android tools and the directory of the
Kotlin compiler.
-/

namespace CompiledViews

/-- The variables of the environment that tell where tools are. -/
structure Environment where
  androidHome : Option Text
  kotlinHome : Option Text
  home : Option Text
  userProfile : Option Text
deriving DecidableEq, Repr

/-- The paths of tools and libraries. -/
structure ToolPaths where
  androidHome : Text
  kotlinHome : Text
  adb : Text
  d8 : Text
  dexdump : Text
  platform : Text
  kotlinc : Text
  kotlinLibraries : List Text
deriving DecidableEq, Repr

namespace ToolPaths

open CompiledViews.Path (join)

/-- The names in a directory; none if it cannot be read. -/
def namesIn (tree : FileTree) (directory : Text) : List Text :=
  match tree.readDirectory directory with
  | .ok names => names
  | .error _ => []

/-- The directory whose name comes last in a directory. -/
def latestChild? (tree : FileTree) (directory : Text) : Option Text :=
  let children := (namesIn tree directory).filter fun name =>
    tree.isDirectory (join directory name)
  (Text.sort children).getLast?.map (join directory)

/-- The library of annotations: the first one with a version in its name, or the one without. -/
def annotationLibrary (tree : FileTree) (libraries : Text) : Text :=
  let versioned := (namesIn tree libraries).filter fun name =>
    Text.startsWith name "annotations-" && Text.endsWith name ".jar"
  join libraries ((Text.sort versioned).head?.getD "annotations.jar")

/-- The paths below the two directories. -/
def find (tree : FileTree) (androidHome kotlinHome : Text) : ToolPaths :=
  let buildTools := (latestChild? tree (join androidHome "build-tools")).getD androidHome
  let platforms := (latestChild? tree (join androidHome "platforms")).getD androidHome
  let libraries := join kotlinHome "lib"
  { androidHome, kotlinHome
    adb := join (join androidHome "platform-tools") "adb"
    d8 := join (join buildTools "lib") "d8.jar"
    dexdump := join buildTools "dexdump"
    platform := join platforms "android.jar"
    kotlinc := join (join kotlinHome "bin") "kotlinc"
    kotlinLibraries := [
      join libraries "kotlin-stdlib-jdk8.jar",
      join libraries "kotlin-stdlib.jar",
      join libraries "kotlin-annotations-jvm.jar",
      join libraries "kotlinx-coroutines-core-jvm.jar",
      annotationLibrary tree libraries] }

/-- The paths for directories that are given, or else set in the environment, or else the home
directory. -/
def resolve (tree : FileTree) (environment : Environment) (androidHome kotlinHome : Option Text) :
    ToolPaths :=
  let home := (environment.home <|> environment.userProfile).getD []
  find tree ((androidHome <|> environment.androidHome).getD home)
    ((kotlinHome <|> environment.kotlinHome).getD home)

/-- The tools that are needed but not there. -/
def missing (tree : FileTree) (paths : ToolPaths) : List Text :=
  [paths.adb, paths.d8, paths.dexdump, paths.kotlinc].filter fun path => !tree.present path

def isValid (tree : FileTree) (paths : ToolPaths) : Bool := (paths.missing tree).isEmpty

/-- The libraries that sources are compiled against. -/
def classpath (paths : ToolPaths) : Text :=
  Text.join ":" (paths.kotlinLibraries ++ [paths.platform])

end ToolPaths

end CompiledViews
