import PreferenceInjector.Derive.Path

/-!
# Type definitions

A type definition is a structure, an enumeration or a union with attributes, a visibility, a name
and generic parameters. An injector is derived for a structure with named fields, so only those
fields are kept; of all other definitions it is only checked that they are well formed.
-/

namespace PreferenceInjector.Derive

/-- The arguments of an attribute. -/
inductive AttributeArguments where
  /-- None. -/
  | bare
  /-- Tokens in brackets of any kind. -/
  | list (content : List Token)
  /-- A value behind an equals sign. -/
  | value
  deriving DecidableEq, Repr

/-- An attribute. -/
structure Attribute where
  /-- The path that names the attribute. -/
  path : Path
  /-- Its arguments. -/
  arguments : AttributeArguments
  deriving DecidableEq, Repr

/-- Whether an attribute has exactly the given name. -/
def Attribute.isNamed (self : Attribute) (name : String) : Bool := self.path.name? == some name

/-- The type of a field. -/
inductive FieldType where
  /-- A plain path. -/
  | path (path : Path)
  /-- Any other type, by its tokens. -/
  | other (tokens : List Token)
  deriving DecidableEq, Repr

/-- The field type that the tokens of a type stand for. -/
def FieldType.ofTokens (tokens : List Token) : FieldType :=
  match pathOf allArguments tokens with
  | .ok found => .path found
  | .error _ => .other tokens

/-- A field type as a name: the names of a path with dots between them, or the text of the type. -/
def FieldType.declared : FieldType → String
  | .path found => ".".intercalate found.names
  | .other tokens => textOf tokens

/-- A named field. -/
structure NamedField where
  /-- The attributes of the field. -/
  attributes : List Attribute
  /-- Its name, as it is spelled. -/
  name : String
  /-- Its type. -/
  type : FieldType
  deriving DecidableEq, Repr

/-- A generic parameter. -/
structure Parameter where
  /-- Whether the parameter is a lifetime. -/
  lifetime : Bool
  /-- The name of the parameter. -/
  name : Token
  /-- The whole declaration except for a default. -/
  declaration : List Token
  deriving DecidableEq, Repr

/-- The generic parameters of a definition, each with whether a comma follows it. -/
abbrev Parameters := List (Parameter × Bool)

/-- The tokens of generic parameters in angle brackets, lifetimes first; none if there are no
parameters. -/
def Parameters.written (parameters : Parameters) (tokens : Parameter → List Token) : List Token :=
  if parameters.isEmpty then []
  else
    operator "<" ++
      lifetimesFirst (parameters.map fun (p, comma) => ⟨p.lifetime, tokens p, comma⟩) ++
      operator ">"

/-- What a definition defines. -/
inductive Shape where
  /-- A structure with named fields. -/
  | named (fields : List NamedField)
  /-- A structure whose fields have no names or that has none. -/
  | unnamed
  /-- An enumeration or a union. -/
  | variant
  deriving DecidableEq, Repr

/-- A type definition. -/
structure Item where
  /-- The attributes of the definition. -/
  attributes : List Attribute
  /-- The visibility; no tokens if none is given. -/
  visibility : List Token
  /-- The name, as it is spelled. -/
  name : String
  /-- The generic parameters. -/
  parameters : Parameters
  /-- The conditions on the parameters, with the word before them; no tokens if there are none. -/
  conditions : List Token
  /-- What is defined. -/
  shape : Shape
  deriving DecidableEq, Repr

end PreferenceInjector.Derive
