import CompiledViews.Text.Lines

/-!
# Support files

The files that a run puts beside the source: annotations that the source may use, and the rules by
which code is optimized.
-/

namespace CompiledViews.Toolchain

/-- The name of the file that the source is compiled from. -/
def sourceFile : Text := "KotlinExplorer.kt"

/-- The name of the class that holds the functions of the source. -/
def mainClass : Text := "KotlinExplorerKt"

/-- The name of the file with the rules of the optimizer. -/
def rulesFile : Text := "rules.txt"

/-- The annotation for code that has to be kept. -/
def keepSource : Text := Text.unlines [
  "import java.lang.annotation.ElementType.ANNOTATION_TYPE",
  "import java.lang.annotation.ElementType.CONSTRUCTOR",
  "import java.lang.annotation.ElementType.FIELD",
  "import java.lang.annotation.ElementType.METHOD",
  "import java.lang.annotation.ElementType.PACKAGE",
  "import java.lang.annotation.ElementType.TYPE",
  "",
  "@Retention(AnnotationRetention.BINARY)",
  "@Target(",
  "    AnnotationTarget.FILE,",
  "    AnnotationTarget.ANNOTATION_CLASS,",
  "    AnnotationTarget.CLASS,",
  "    AnnotationTarget.CONSTRUCTOR,",
  "    AnnotationTarget.FUNCTION,",
  "    AnnotationTarget.PROPERTY_GETTER,",
  "    AnnotationTarget.PROPERTY_SETTER,",
  "    AnnotationTarget.FIELD",
  ")",
  "@Suppress(\"DEPRECATED_JAVA_ANNOTATION\", \"SupportAnnotationUsage\")",
  "@java.lang.annotation.Target(PACKAGE, TYPE, ANNOTATION_TYPE, CONSTRUCTOR, METHOD, FIELD)",
  "public annotation class Keep"]

/-- The annotation for functions that must not be inlined. -/
def neverInlineSource : Text := Text.unlines [
  "@file:OptIn(ExperimentalMultiplatform::class)",
  "",
  "package dalvik.annotation.optimization",
  "",
  "@Retention(AnnotationRetention.BINARY)",
  "@Target(AnnotationTarget.CONSTRUCTOR, AnnotationTarget.FUNCTION)",
  "public annotation class NeverInline()"]

/-- The files beside the source, by name. -/
def supportFiles : List (Text × Text) :=
  [("Keep.kt", keepSource), ("NeverInline.kt", neverInlineSource)]

/-- The rules of the optimizer that do not depend on the settings. -/
def commonRules : Text := Text.unlines [
  "-optimizations !code/simplification/arithmetic,!code/simplification/cast,!field/*," ++
    "!class/merging/*",
  "-optimizationpasses 5",
  "-allowaccessmodification",
  "-dontpreverify",
  "-dontobfuscate"]

/-- The rules that keep all code of the program. -/
def keepEverythingRules : Text := Text.unlines [
  "-keep,allowoptimization class !kotlin.**,!kotlinx.** \x7b",
  "    <methods>;",
  "\x7d"]

def keepAnnotatedRules : Text := Text.unlines [
  "-keep,allowobfuscation @interface Keep",
  "-keep @Keep class * \x7b*;\x7d",
  "-keepclasseswithmembers class * \x7b",
  "    @Keep <methods>;",
  "\x7d",
  "-keepclasseswithmembers class * \x7b",
  "    @Keep <fields>;",
  "\x7d",
  "-keepclasseswithmembers class * \x7b",
  "    @Keep <init>(...);",
  "\x7d"]

/-- The rules of the optimizer, with others at the end. -/
def r8Rules (keepEverything : Bool) (others : Text) : Text :=
  commonRules ++ (if keepEverything then keepEverythingRules else keepAnnotatedRules) ++ others

end CompiledViews.Toolchain
