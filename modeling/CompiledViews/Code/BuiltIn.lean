import CompiledViews.Text.Basic

/-!
# Built-in classes

Classes of the runtime and of the tools, which are left out of every view.
-/

namespace CompiledViews

/-- Packages whose classes are built in. -/
def builtInPackages : List Text :=
  ["kotlin", "kotlinx", "java", "javax", "org.intellij", "org.jetbrains"]

/-- Whether a class name lies in a built-in package: the name of the package, a period, and at
least one more character on the same line. -/
def isBuiltIn (className : Text) : Bool :=
  builtInPackages.any fun package =>
    match Text.after? (package ++ ".") className with
    | some (first :: _) => first != '\n'
    | _ => false

end CompiledViews
