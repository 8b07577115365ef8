/-!
# Declaration files as trees

A declaration file as the pieces it is written in: every token and, between the tokens, the gaps
of blanks and comments. `Document.text` puts the pieces together again, so a tree says exactly
which text it stands for. Names are kept as their characters; the words and punctuation that the
grammar fixes are written by `text` and not kept.
-/

namespace PreferenceInjector.Declaration

/-- A piece of text without meaning. -/
inductive Skipped where
  /-- A blank, a tab or a line end character. -/
  | blank (c : Char)
  /-- A comment from `//` up to the end of its line, without the line end. -/
  | lineComment (body : List Char)
  /-- A comment between its two marks. -/
  | blockComment (body : List Char)
  deriving DecidableEq, Repr

/-- The text of a skipped piece. -/
def Skipped.text : Skipped → List Char
  | blank c => [c]
  | lineComment body => '/' :: '/' :: body
  | blockComment body => '/' :: '*' :: body ++ ['*', '/']

/-- Whatever stands between two tokens. -/
abbrev Gap := List Skipped

/-- The text of a gap. -/
def Gap.text (gap : Gap) : List Char := gap.flatMap Skipped.text

/-- A name of one or more identifiers with dots between them. -/
structure Dotted where
  /-- The first identifier. -/
  first : List Char
  /-- The identifiers after the dots. -/
  more : List (List Char)
  deriving DecidableEq, Repr

/-- The text of a dotted name. -/
def Dotted.text (name : Dotted) : List Char := name.first ++ name.more.flatMap ('.' :: ·)

/-- The gaps inside the brackets of each array dimension, and the gaps before the brackets. -/
abbrev Dimensions := List (Gap × Gap)

/-- The text of array dimensions. -/
def Dimensions.text (dimensions : Dimensions) : List Char :=
  dimensions.flatMap fun (before, inside) => before.text ++ '[' :: inside.text ++ [']']

mutual

/-- A type as it is written. -/
inductive TypeTree where
  /-- A name, possibly with array dimensions. -/
  | plain (name : Dotted) (gap : Gap) (dimensions : Dimensions)
  /-- A name with type arguments, possibly with array dimensions. -/
  | applied (name : Dotted) (gap : Gap) (arguments : TypeListTree) (after : Gap)
    (dimensions : Dimensions)

/-- The type arguments after an opening bracket, up to the closing one. -/
inductive TypeListTree where
  /-- The last argument. -/
  | last (before : Gap) (type : TypeTree) (after : Gap)
  /-- An argument and those after the comma. -/
  | cons (before : Gap) (type : TypeTree) (after : Gap) (rest : TypeListTree)

end

mutual

/-- The text of a type, with the gap after it where no dimension follows. -/
def TypeTree.text : TypeTree → List Char
  | .plain name gap dimensions => name.text ++ gap.text ++ dimensions.text
  | .applied name gap arguments after dimensions =>
    name.text ++ gap.text ++ '<' :: arguments.text ++ after.text ++ dimensions.text

/-- The text of type arguments with the closing bracket. -/
def TypeListTree.text : TypeListTree → List Char
  | .last before type after => before.text ++ type.text ++ after.text ++ ['>']
  | .cons before type after rest => before.text ++ type.text ++ after.text ++ ',' :: rest.text

end

/-- What may stand before the type of a field. -/
inductive Decoration where
  /-- An annotation, with its arguments as balanced text if it has any. -/
  | annotated (gap : Gap) (name : Dotted) (after : Gap) (arguments : Option (List Char))
  /-- One of the modifier words. -/
  | modifier (word : List Char)
  deriving DecidableEq, Repr

/-- The text of a decoration. -/
def Decoration.text : Decoration → List Char
  | annotated gap name after arguments =>
    '@' :: gap.text ++ name.text ++ after.text ++ arguments.getD []
  | modifier word => word

/-- A field declaration. -/
structure FieldTree where
  /-- The annotations and modifiers, each after a gap. -/
  decorations : List (Gap × Decoration)
  /-- The gap before the type. -/
  beforeType : Gap
  /-- The type. -/
  type : TypeTree
  /-- The gap before the name. -/
  beforeName : Gap
  /-- The name. -/
  name : List Char
  /-- The gap before the semicolon. -/
  beforeEnd : Gap

/-- The text of a field declaration. -/
def FieldTree.text (field : FieldTree) : List Char :=
  field.decorations.flatMap (fun (gap, decoration) => gap.text ++ decoration.text) ++
    field.beforeType.text ++ field.type.text ++ field.beforeName.text ++ field.name ++
    field.beforeEnd.text ++ [';']

/-- A class declaration. -/
structure ClassTree where
  /-- The gap before the name. -/
  beforeName : Gap
  /-- The name. -/
  name : List Char
  /-- The gap before the opening brace. -/
  beforeBody : Gap
  /-- The fields, each after a gap. -/
  fields : List (Gap × FieldTree)
  /-- The gap before the closing brace. -/
  beforeEnd : Gap

/-- The text of a class declaration. -/
def ClassTree.text (tree : ClassTree) : List Char :=
  "class".toList ++ tree.beforeName.text ++ tree.name ++ tree.beforeBody.text ++ '\x7b' ::
    tree.fields.flatMap (fun (gap, field) => gap.text ++ field.text) ++
    tree.beforeEnd.text ++ ['\x7d']

/-- One or more dotted names with commas between them. -/
structure NamesTree where
  /-- The gap before the first name. -/
  beforeFirst : Gap
  /-- The first name. -/
  first : Dotted
  /-- The other names with the gaps before and after their commas. -/
  more : List (Gap × Gap × Dotted)
  deriving DecidableEq, Repr

/-- The names of a list in order. -/
def NamesTree.names (tree : NamesTree) : List Dotted := tree.first :: tree.more.map (·.2.2)

/-- The text of a list of names. -/
def NamesTree.text (tree : NamesTree) : List Char :=
  tree.beforeFirst.text ++ tree.first.text ++
    tree.more.flatMap fun (before, after, name) => before.text ++ ',' :: after.text ++ name.text

/-- An entry of a component declaration. -/
inductive EntryTree where
  /-- Wrappers that the component owns. -/
  | entities (names : NamesTree) (beforeEnd : Gap)
  /-- Classes that the component injects. -/
  | inject (names : NamesTree) (beforeEnd : Gap)
  deriving DecidableEq, Repr

/-- The text of an entry. -/
def EntryTree.text : EntryTree → List Char
  | entities names beforeEnd => "entities".toList ++ names.text ++ beforeEnd.text ++ [';']
  | inject names beforeEnd => "inject".toList ++ names.text ++ beforeEnd.text ++ [';']

/-- A component declaration. -/
structure ComponentTree where
  /-- The gap before the name. -/
  beforeName : Gap
  /-- The name. -/
  name : List Char
  /-- The gap before the opening brace. -/
  beforeBody : Gap
  /-- The entries, each after a gap. -/
  entries : List (Gap × EntryTree)
  /-- The gap before the closing brace. -/
  beforeEnd : Gap

/-- The text of a component declaration. -/
def ComponentTree.text (tree : ComponentTree) : List Char :=
  "component".toList ++ tree.beforeName.text ++ tree.name ++ tree.beforeBody.text ++ '\x7b' ::
    tree.entries.flatMap (fun (gap, entry) => gap.text ++ entry.text) ++
    tree.beforeEnd.text ++ ['\x7d']

/-- A block of a declaration file. -/
inductive ItemTree where
  | component (tree : ComponentTree)
  | consumer (tree : ClassTree)

/-- The text of a block. -/
def ItemTree.text : ItemTree → List Char
  | component tree => tree.text
  | consumer tree => tree.text

/-- A package clause. -/
structure PackageTree where
  /-- The gap before the name. -/
  beforeName : Gap
  /-- The name. -/
  name : Dotted
  /-- The gap before the semicolon. -/
  beforeEnd : Gap
  deriving DecidableEq, Repr

/-- The text of a package clause. -/
def PackageTree.text (tree : PackageTree) : List Char :=
  "package".toList ++ tree.beforeName.text ++ tree.name.text ++ tree.beforeEnd.text ++ [';']

/-- A whole declaration file. -/
structure Document where
  /-- The gap at the beginning. -/
  atStart : Gap
  /-- The package clause, if there is one. -/
  package : Option PackageTree
  /-- The blocks, each after a gap. -/
  items : List (Gap × ItemTree)
  /-- The gap at the end. -/
  atEnd : Gap

/-- The text of a declaration file. -/
def Document.text (document : Document) : List Char :=
  document.atStart.text ++ (document.package.map PackageTree.text).getD [] ++
    document.items.flatMap (fun (gap, item) => gap.text ++ item.text) ++ document.atEnd.text

end PreferenceInjector.Declaration
