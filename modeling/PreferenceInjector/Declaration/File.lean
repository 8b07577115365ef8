import PreferenceInjector.Component
import PreferenceInjector.Declaration.Report

/-!
# Declaration files

What a declaration file declares: the components with the classes they inject, and the classes
with their fields. All of it lies in the package of the file. Entities are kept by their simple
names; an injected class without a package is looked for in the package of the file; a field is
marked when one of its annotations has the simple name of the injection marker. A file that
follows the grammar can still declare a component that lists something else than wrappers, and
the first such component is reported.
-/

namespace PreferenceInjector.Declaration

/-- The simple name of the annotation that marks a field for injection. -/
def injectionMarker : String := "InjectPreference"

/-- A component together with the qualified names of the classes it injects. -/
structure Entry where
  /-- The component. -/
  component : Component
  /-- The injected classes in declaration order. -/
  injects : List String
  deriving DecidableEq

/-- Everything that one file declares. -/
structure File where
  /-- The path of the file. -/
  path : String
  /-- The package, empty without a package clause. -/
  package : String
  /-- The components in file order. -/
  components : List Entry
  /-- The classes in file order. -/
  classes : List Consumer
  deriving DecidableEq

/-- A dotted name as a string. -/
def Dotted.string (name : Dotted) : String := String.ofList name.text

/-- Whether a decoration marks its field for injection. -/
def Decoration.isMarker : Decoration → Bool
  | annotated _ name _ _ => simpleName name.string == injectionMarker
  | modifier _ => false

/-- A field as it is declared; the type is its text without the white space at its ends. -/
def FieldTree.field (tree : FieldTree) : Field where
  name := String.ofList tree.name
  type := String.ofList (trimmed tree.type.text)
  marked := tree.decorations.any (·.2.isMarker)

/-- A class as it is declared in a package. -/
def ClassTree.consumer (package : String) (tree : ClassTree) : Consumer where
  package
  name := String.ofList tree.name
  fields := tree.fields.map (·.2.field)

/-- The wrappers that an entry lists. -/
def EntryTree.wrappers : EntryTree → List String
  | entities names _ => names.names.map (simpleName ·.string)
  | inject _ _ => []

/-- An injected class with the package of the file in place of a missing one. -/
def targetIn (package target : String) : String :=
  if target.toList.contains '.' then target else qualify package target

/-- The classes that an entry injects. -/
def EntryTree.targets (package : String) : EntryTree → List String
  | entities _ _ => []
  | inject names _ => names.names.map (targetIn package ·.string)

/-- A component as it is declared in a package. -/
def ComponentTree.entry (package : String) (tree : ComponentTree) : Reported Entry := do
  let component ← Component.declare package (String.ofList tree.name)
    (tree.entries.flatMap (·.2.wrappers))
  pure ⟨component, tree.entries.flatMap (·.2.targets package)⟩

/-- The components among blocks, in order. -/
def componentTrees (items : List (Gap × ItemTree)) : List ComponentTree :=
  items.filterMap fun
    | (_, .component tree) => some tree
    | (_, .consumer _) => none

/-- The classes among blocks, in order. -/
def classTrees (items : List (Gap × ItemTree)) : List ClassTree :=
  items.filterMap fun
    | (_, .component _) => none
    | (_, .consumer tree) => some tree

/-- The package that a document declares. -/
def Document.packageName (document : Document) : String :=
  (document.package.map (·.name.string)).getD ""

/-- What a document declares, under the path of its file. -/
def Document.file (path : String) (document : Document) : Reported File := do
  let package := document.packageName
  let components ← Reported.forEach (ComponentTree.entry package) (componentTrees document.items)
  pure {
    path, package, components
    classes := (classTrees document.items).map (ClassTree.consumer package) }

/-- The declaration file with the given path and text. -/
def File.ofText (path text : String) : Reported File :=
  match Document.ofText? text.toList with
  | some document => document.file path
  | none => Reported.fail (.ungrammatical path (report path text.toList))

end PreferenceInjector.Declaration
