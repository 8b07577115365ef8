import PreferenceInjector.Injector
import PreferenceInjector.FileTree.Path

/-!
# Compilation units

The Java source file of an injector: the package, the imports, the documentation comment and the
class with its constructor. Types outside the injector's package are imported, so that the class can
use simple names throughout. A comment terminator inside the documentation is written so that it
does not end the comment.
-/

namespace PreferenceInjector.CompilationUnit

/-- How source files are written. -/
structure Options where
  /-- The documentation of every injector; none is written when it is empty. -/
  javadoc : String := "Generated by PreferenceRoom. (https://github.com/skydoves/PreferenceRoom)."
  /-- The annotation type of the constructor parameter; an empty text stands for no annotation. -/
  annotationType : String := "android.support.annotation.NonNull"
  /-- One level of indentation. -/
  indent : String := "  "
  deriving DecidableEq, Repr

/-- A text with every comment terminator written as `*&#47;`. -/
def escapeTerminator : List Char → List Char
  | '*' :: '/' :: rest => '*' :: '&' :: '#' :: '4' :: '7' :: ';' :: escapeTerminator rest
  | c :: rest => c :: escapeTerminator rest
  | [] => []

/-- The imported types: the annotation and the component, each unless it lies in the unnamed
package or in the package of the injector itself. -/
def imports (injector : Injector) (options : Options) : List String :=
  let note :=
    let package := (splitQualified options.annotationType).1
    if package.isEmpty || package == injector.package then [] else [options.annotationType]
  let component :=
    let package := injector.component.package
    if package.isEmpty || package == injector.package then [] else [injector.component.qualified]
  (firstSeen (note ++ component)).mergeSort fun a b => decide (a ≤ b)

/-- The lines of the documentation comment. -/
def javadocLines (javadoc : String) : List String :=
  if javadoc.isEmpty then []
  else
    ["/**"] ++
      (textLines javadoc.toList).map (fun line => " * " ++ String.ofList (escapeTerminator line)) ++
      [" */"]

/-- The lines of the class: its constructor assigns the fields one by one. -/
def classLines (injector : Injector) (options : Options) : List String :=
  let note :=
    if options.annotationType.isEmpty then "" else "@" ++ simpleName options.annotationType ++ " "
  ["public class " ++ injector.name ++ " \x7b",
    options.indent ++ "public " ++ injector.name ++ "(" ++ note ++
      injector.parameter.simple ++ " " ++ injectedObject ++ ") \x7b"] ++
  injector.assignments.map (fun assignment =>
    options.indent ++ options.indent ++ injectedObject ++ "." ++ assignment.text ++ ";") ++
  [options.indent ++ "\x7d", "\x7d"]

/-- The lines of the compilation unit of an injector. -/
def unitLines (injector : Injector) (options : Options) : List String :=
  (if injector.package.isEmpty then [] else ["package " ++ injector.package ++ ";", ""]) ++
  (match imports injector options with
    | [] => []
    | types => types.map (fun type => "import " ++ type ++ ";") ++ [""]) ++
  javadocLines options.javadoc ++ classLines injector options

/-- The compilation unit of an injector, every line ended by a line feed. -/
def render (injector : Injector) (options : Options) : String :=
  String.join ((unitLines injector options).map (· ++ "\n"))

/-- The path of an injector's source file: a directory for each package segment below the output
directory, and in the last one a file named after the class. -/
def sourcePath (outDir : String) (injector : Injector) : String :=
  let segments := if injector.package.isEmpty then [] else splitAt '.' injector.package
  joinPath (segments.foldl joinPath outDir) (injector.name ++ ".java")

end PreferenceInjector.CompilationUnit
