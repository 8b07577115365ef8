import PreferenceInjector.Declaration.Reading

/-!
# The grammar of declaration files

A file is an optional package clause followed by components and classes. Each rule is a function
from a text to its reading; alternatives are tried in order, and repetitions take as much as they
can. Tokens need no gap between them where the first one cannot go on, and a keyword is only its
letters, so `classA` declares the class `A`. Because a type may go on after its name, the gap
behind the name belongs to it.
-/

namespace PreferenceInjector.Declaration

open Reading

/-- An identifier. -/
def readIdentifier (s : List Char) : Reading (List Char) s :=
  atom .identifier s (takeIdentifier? s) fun _ _ => length_of_takeIdentifier?

/-- A dotted name. -/
def readName (s : List Char) : Reading Dotted s :=
  atom .name s (takeName? s) fun _ _ => length_of_takeName?

/-- A mark after a gap. -/
def readMark (c : Char) (s : List Char) : Reading Gap s :=
  (Ending.gap s).andThen fun gap r _ => (mark c r).map fun _ => gap

/-- The brackets of an array dimension. -/
def readDimension (s : List Char) : Reading Gap s :=
  within .dimension <| (mark '[' s).andThen fun _ r _ => readMark ']' r

mutual

/-- A type: a name, type arguments if there are any, and array dimensions. -/
def readType (s : List Char) : Reading TypeTree s :=
  within .type <|
    (readName s).finish fun name r _ =>
    (Ending.gap r).finish fun gap r₁ _ =>
    (optional (readTypeArguments r₁)).finish fun arguments r₂ _ =>
    (Ending.gap r₂).finish fun after r₃ _ =>
    (repeated readDimension r₃).finish fun dimensions r₄ _ =>
    Ending.done (match arguments with
      | none => .plain name (gap ++ after) dimensions
      | some arguments => .applied name gap arguments after dimensions) r₄
termination_by 2 * s.length

/-- Type arguments in angle brackets. -/
def readTypeArguments (s : List Char) : Reading TypeListTree s :=
  within .typeArguments <| (mark '<' s).andThen fun _ r _ => readTypeList r
termination_by 2 * s.length

/-- Types with commas between them, up to the closing bracket. -/
def readTypeList (s : List Char) : Reading TypeListTree s :=
  (Ending.gap s).andThen fun before r _ =>
  (readType r).andThen fun type r₁ _ =>
  (Ending.gap r₁).andThen fun after r₂ _ =>
    ((mark ',' r₂).andThen fun _ r₃ _ =>
      (readTypeList r₃).map fun rest => .cons before type after rest).orElse
    ((mark '>' r₂).map fun _ => .last before type after)
termination_by 2 * s.length + 1

end

/-- The arguments of an annotation. -/
def readArguments (s : List Char) : Reading (List Char) s :=
  match takeArguments? s with
  | some (text, rest) => ⟨some (text, rest), []⟩
  | none => ⟨none, [.mk .arguments s.length []]⟩

/-- An annotation. -/
def readAnnotated (s : List Char) : Reading Decoration s :=
  within .annotated <|
    (mark '@' s).andThen fun _ r _ =>
    (Ending.gap r).andThen fun gap r₁ _ =>
    (readName r₁).finish fun name r₂ _ =>
    (Ending.gap r₂).finish fun after r₃ _ =>
    (optional (readArguments r₃)).finish fun arguments r₄ _ =>
    Ending.done (.annotated gap name after arguments) r₄

/-- A modifier. -/
def readModifier (s : List Char) : Reading Decoration s :=
  (atom .modifier s (takeModifier? s) fun _ _ => length_of_takeModifier?).map .modifier

/-- A field: annotations and modifiers, a type, a name and a semicolon. -/
def readField (s : List Char) : Reading FieldTree s :=
  within .field <|
    (repeated (fun r => (readAnnotated r).orElse (readModifier r)) s).andThen
      fun decorations r _ =>
    (Ending.gap r).andThen fun beforeType r₁ _ =>
    (readType r₁).andThen fun type r₂ _ =>
    (Ending.gap r₂).andThen fun beforeName r₃ _ =>
    (readIdentifier r₃).andThen fun name r₄ _ =>
    (readMark ';' r₄).map fun beforeEnd =>
      { decorations, beforeType, type, beforeName, name, beforeEnd }

/-- A class with its fields. -/
def readClass (s : List Char) : Reading ClassTree s :=
  within .consumer <|
    (word "class" s).andThen fun _ r _ =>
    (Ending.gap r).andThen fun beforeName r₁ _ =>
    (readIdentifier r₁).andThen fun name r₂ _ =>
    (readMark '\x7b' r₂).andThen fun beforeBody r₃ _ =>
    (repeated readField r₃).andThen fun fields r₄ _ =>
    (readMark '\x7d' r₄).map fun beforeEnd => { beforeName, name, beforeBody, fields, beforeEnd }

/-- A name after a comma. -/
def readNextName (s : List Char) : Reading (Gap × Dotted) s :=
  (mark ',' s).andThen fun _ r _ =>
  (Ending.gap r).andThen fun gap r₁ _ =>
  (readName r₁).map fun name => (gap, name)

/-- Names with commas between them. -/
def readNames (s : List Char) : Reading NamesTree s :=
  (Ending.gap s).andThen fun beforeFirst r _ =>
  (readName r).finish fun first r₁ _ =>
  (repeated readNextName r₁).finish fun more r₂ _ =>
  Ending.done { beforeFirst, first, more } r₂

/-- A list of owned wrappers. -/
def readEntities (s : List Char) : Reading EntryTree s :=
  within .entities <|
    (word "entities" s).andThen fun _ r _ =>
    (readNames r).andThen fun names r₁ _ =>
    (readMark ';' r₁).map fun beforeEnd => .entities names beforeEnd

/-- A list of injected classes. -/
def readInject (s : List Char) : Reading EntryTree s :=
  within .inject <|
    (word "inject" s).andThen fun _ r _ =>
    (readNames r).andThen fun names r₁ _ =>
    (readMark ';' r₁).map fun beforeEnd => .inject names beforeEnd

/-- A component with its entries. -/
def readComponent (s : List Char) : Reading ComponentTree s :=
  within .component <|
    (word "component" s).andThen fun _ r _ =>
    (Ending.gap r).andThen fun beforeName r₁ _ =>
    (readIdentifier r₁).andThen fun name r₂ _ =>
    (readMark '\x7b' r₂).andThen fun beforeBody r₃ _ =>
    (repeated (fun t => (readEntities t).orElse (readInject t)) r₃).andThen fun entries r₄ _ =>
    (readMark '\x7d' r₄).map fun beforeEnd => { beforeName, name, beforeBody, entries, beforeEnd }

/-- A component or a class. -/
def readItem (s : List Char) : Reading ItemTree s :=
  ((readComponent s).map .component).orElse ((readClass s).map .consumer)

/-- The package clause. -/
def readPackage (s : List Char) : Reading PackageTree s :=
  within .package <|
    (word "package" s).andThen fun _ r _ =>
    (Ending.gap r).andThen fun beforeName r₁ _ =>
    (readName r₁).andThen fun name r₂ _ =>
    (readMark ';' r₂).map fun beforeEnd => { beforeName, name, beforeEnd }

/-- The longest beginning of a text that is a file, and what is left after it. -/
def readDocument (s : List Char) : Ending Document s :=
  (Ending.gap s).finish fun atStart r _ =>
  (optional (readPackage r)).finish fun package r₁ _ =>
  (repeated readItem r₁).finish fun items r₂ _ =>
  (Ending.gap r₂).finish fun atEnd r₃ _ =>
  Ending.done { atStart, package, items, atEnd } r₃

/-- The file that a whole text stands for. -/
def Document.ofText? (s : List Char) : Option Document :=
  let reading := readDocument s
  if reading.rest.1.isEmpty then some reading.value else none

/-- The rules missed in a text that is no file: those of the longest beginning that is one, then
the end of the input, all of them inside the file. -/
def missesOf (s : List Char) : Miss :=
  let reading := readDocument s
  .mk .file s.length (reading.misses ++ [.mk .endOfInput reading.rest.1.length []])

end PreferenceInjector.Declaration
