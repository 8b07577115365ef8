import PreferenceInjector.Derive.Arguments
import PreferenceInjector.Derive.SnakeCase
import PreferenceInjector.Injector

/-!
# Derived injectors

The injector derived for a structure with named fields: a structure of its own whose constructor
fills the marked fields from the singleton of the component. The marked fields are resolved like
those of a declared class, and accessors are written in snake case. A definition for which there is
no injector is refused with the first reason found; a name that cannot be written is found last
and ends the expansion abruptly.
-/

namespace PreferenceInjector.Derive

/-- The attribute that describes the component. -/
def injectorAttribute : String := "injector"

/-- The attribute that marks a field for injection. -/
def markerAttribute : String := "inject_preference"

/-- Why there is no injector for a definition. -/
inductive Refusal where
  /-- An enumeration or a union is defined. -/
  | notStructure
  /-- The fields of the structure have no names. -/
  | unnamedFields
  /-- No attribute describes the component. -/
  | noAttribute
  /-- The arguments of the attribute cannot be read. -/
  | arguments (flaw : ArgumentFlaw)
  /-- The attribute names no component. -/
  | noComponent
  /-- The component cannot be built, or a marked field cannot be resolved. -/
  | failed (failure : Failure)
  /-- A generated name is a number. -/
  | numberAsName
  /-- A generated name is no identifier. -/
  | illegalName (name : String)
  deriving DecidableEq, Repr

/-- The wording of a refusal. -/
def Refusal.message : Refusal → String
  | .notStructure => "Injector can only be derived for structs"
  | .unnamedFields => "Injector can only be derived for structs with named fields"
  | .noAttribute => "missing #[injector(component = \"path::To::Component\")] attribute"
  | .arguments flaw => flaw.message
  | .noComponent => "injector attribute requires `component`"
  | .failed failure => failure.message.getD ""
  | .numberAsName => "Ident cannot be a number; use Literal instead"
  | .illegalName name => Unicode.quoted name ++ " is not a valid Ident"

/-- Whether a refusal ends the expansion abruptly. -/
def Refusal.isAbrupt : Refusal → Bool
  | .numberAsName | .illegalName _ => true
  | _ => false

/-- Whether a text has the form of an identifier, keywords included. -/
def isIdentifier : List Char → Bool
  | [] => false
  | c :: rest => startsName c && rest.all continuesName

/-- A generated name, which must have the form of an identifier. -/
def generatedName (name : String) : Except Refusal String :=
  if isIdentifier name.toList then pure name
  else if name.toList.all Char.isDigit then throw .numberAsName
  else throw (.illegalName name)

/-- One statement of a derived injector. -/
structure Statement where
  /-- The field that is assigned. -/
  field : String
  /-- The accessor called on the singleton, if any. -/
  accessor : Option String
  deriving DecidableEq, Repr

/-- A derived injector. -/
structure Expansion where
  /-- The visibility of the structure, which its injector shares. -/
  visibility : List Token
  /-- The name of the injector. -/
  name : String
  /-- The name of the structure. -/
  target : String
  /-- The generic parameters of the structure. -/
  parameters : Parameters
  /-- The conditions on the parameters. -/
  conditions : List Token
  /-- The path of the singleton. -/
  singleton : Path
  /-- The statements, in the order of the fields. -/
  statements : List Statement
  deriving DecidableEq, Repr

/-- A named field as a field of a class. -/
def NamedField.toField (self : NamedField) : Field where
  name := self.name
  type := self.type.declared
  marked := self.attributes.any (·.isNamed markerAttribute)

/-- The class that a structure with the given name and fields is. -/
def consumerOf (name : String) (fields : List NamedField) : Consumer :=
  ⟨"", name, fields.map (·.toField)⟩

/-- The component that a path and the names of wrappers describe: its class is the last segment of
the path and its package the others. -/
def componentOf (path : Path) (wrappers : List String) : Except Flaw Component :=
  Component.build (".".intercalate path.names.dropLast) (path.names.getLast?.getD "") wrappers

/-- What the attributes of a definition say of the component. -/
def argumentsOf (attributes : List Attribute) : Except Refusal (Path × List String) := do
  let some found := attributes.find? (·.isNamed injectorAttribute) | throw .noAttribute
  match InjectorArguments.ofAttribute found.arguments with
  | .error flaw => throw (.arguments flaw)
  | .ok ⟨none, _⟩ => throw .noComponent
  | .ok ⟨some path, wrappers⟩ => pure (path, wrappers)

/-- The statement for an assignment. -/
def Statement.ofAssignment (assignment : Assignment) : Except Refusal Statement :=
  match assignment.source.accessor with
  | none => pure ⟨assignment.field, none⟩
  | some accessor => do return ⟨assignment.field, some (← generatedName (snakeCase accessor))⟩

/-- The fields of the structure that is defined. -/
def Item.namedFields (item : Item) : Except Refusal (List NamedField) :=
  match item.shape with
  | .named fields => pure fields
  | .unnamed => throw .unnamedFields
  | .variant => throw .notStructure

/-- The injector derived for a definition. -/
def expand (item : Item) : Except Refusal Expansion := do
  let fields ← item.namedFields
  let (path, wrappers) ← argumentsOf item.attributes
  let component ← (componentOf path wrappers).mapError fun flaw => .failed (.malformed flaw.text)
  let consumer := consumerOf item.name fields
  let bindings ← (component.bindAll consumer).outcome.mapError .failed
  let injector := Injector.ofBindings consumer component bindings
  let singleton ← generatedName component.singletonName
  let statements ← injector.assignments.mapM Statement.ofAssignment
  pure {
    visibility := item.visibility
    name := injector.name
    target := item.name
    parameters := item.parameters
    conditions := item.conditions
    singleton := path.renamed fun _ => singleton
    statements }

/-- An attribute that silences a warning. -/
def allowing (warning : String) : List Token :=
  operator "#" ++ [.group .square [.name "allow", .group .round [.name warning]]]

/-- A call without arguments. -/
def call (method : String) : List Token := [.name method, .group .round []]

/-- The tokens of a statement that reads from the singleton. -/
def Statement.tokens (self : Statement) (singleton : Path) : List Token :=
  [.name "inject_object"] ++ operator "." ++ [.name self.field] ++ operator "=" ++
    singleton.tokens ++ operator "::" ++ call "get_instance" ++
    (match self.accessor with
      | some accessor => operator "." ++ call accessor
      | none => []) ++ operator ";"

/-- The tokens of the constructor. -/
def Expansion.constructor (self : Expansion) : List Token :=
  operator "#" ++ [.group .square ([.name "doc"] ++ operator "=" ++
    [.literal "r\" Populates every `#[inject_preference]` field of `inject_object`.\""])] ++
  allowing "unused_variables" ++ self.visibility ++ [.name "fn", .name "new"] ++
  self.parameters.written (·.declaration) ++
  [.group .round ([.name "inject_object"] ++ operator ":" ++ operator "&" ++
    [.name "mut", .name self.target] ++ self.parameters.written ([·.name]))] ++
  operator "->" ++ [.name "Self"] ++ self.conditions ++
  [.group .curly (self.statements.flatMap (·.tokens self.singleton) ++ [.name "Self"])]

/-- The tokens of a derived injector. -/
def Expansion.tokens (self : Expansion) : List Token :=
  allowing "non_camel_case_types" ++ self.visibility ++ [.name "struct", .name self.name] ++
  operator ";" ++ [.name "impl", .name self.name, .group .curly self.constructor]

/-- The text of a derived injector. -/
def Expansion.text (self : Expansion) : String := textOf self.tokens

end PreferenceInjector.Derive
