/-!
# Names of declared and generated types

A type name is a text whose dots separate package segments, so the simple name is what follows
the last dot and the package is what precedes it. Generated classes are named after what they
serve: a wrapper after its model, a component singleton after its component, an injector after
its consumer. A name read off a text by `splitQualified` and put together again by `qualify` is
the same text, except that a single leading dot is lost.
-/

namespace PreferenceInjector

/-- What every wrapper class name starts with, before the name of its model. -/
def wrapperStem : String := "Preference_"

/-- What every component singleton name starts with, before the name of its component. -/
def singletonStem : String := "PreferenceComponent_"

/-- What every injector name ends in, after the name of its consumer. -/
def injectorEnding : String := "_Injector"

/-- The method of a singleton class that returns the singleton. -/
def singletonAccessor : String := "getInstance"

/-- The name of the one constructor parameter of an injector. -/
def injectedObject : String := "injectObject"

/-- The two sides of the last dot, or `none` for a text without a dot. -/
def cutAtLastDot : List Char → Option (List Char × List Char)
  | [] => none
  | c :: rest =>
    match cutAtLastDot rest with
    | some (before, after) => some (c :: before, after)
    | none => if c = '.' then some ([], rest) else none

/-- The part of a type name after its last dot. -/
def simpleName (name : String) : String :=
  String.ofList (name.toList.reverse.takeWhile (· != '.')).reverse

/-- A type name cut into package and simple name, the package being empty when there is no dot. -/
def splitQualified (name : String) : String × String :=
  match cutAtLastDot name.toList with
  | some (package, simple) => (String.ofList package, String.ofList simple)
  | none => ("", name)

/-- The name of a class in a package; a class of the unnamed package keeps its bare name. -/
def qualify (package simple : String) : String :=
  if package.isEmpty then simple else package ++ "." ++ simple

/-- The name of the singleton class generated for a component. -/
def singletonName (component : String) : String := singletonStem ++ component

/-- The name of the injector generated for a consumer class. -/
def injectorName (consumer : String) : String := consumer ++ injectorEnding

/-- The text left after `stem`, when the text starts with it. -/
def dropStem? (stem text : String) : Option String :=
  if stem.toList.isPrefixOf text.toList then
    some (String.ofList (text.toList.drop stem.toList.length))
  else none

/-- The method of the component singleton that returns a wrapper: the wrapper name without its
stem. A name that lacks the stem, or has nothing after it, names no wrapper. -/
def wrapperAccessor (wrapper : String) : Option String :=
  (dropStem? wrapperStem wrapper).filter (! ·.isEmpty)

/-- A class name together with the package that holds it. -/
structure TypeRef where
  /-- The package, empty for the unnamed one. -/
  package : String
  /-- The class name inside the package. -/
  simple : String
  deriving DecidableEq, Repr

namespace TypeRef

/-- The type that a qualified name denotes. -/
def ofQualified (name : String) : TypeRef :=
  ⟨(splitQualified name).1, (splitQualified name).2⟩

/-- The qualified name of a type. -/
def qualified (type : TypeRef) : String := qualify type.package type.simple

end TypeRef

end PreferenceInjector
