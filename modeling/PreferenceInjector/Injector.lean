import PreferenceInjector.Resolution

/-!
# Injectors

An injector is a class with one constructor, which takes an object of the consumer class and
assigns each bound field from the component singleton. Building one from bindings cannot fail.
-/

namespace PreferenceInjector

/-- The right side of an assignment: the singleton, or a wrapper fetched from it. -/
structure Source where
  /-- The singleton class. -/
  singleton : TypeRef
  /-- The accessor called on the singleton, if any. -/
  accessor : Option String
  deriving DecidableEq, Repr

namespace Source

/-- The expression with the singleton class under a given name. -/
def expression (source : Source) (singleton : String) : String :=
  match source.accessor with
  | some accessor => singleton ++ "." ++ singletonAccessor ++ "()." ++ accessor ++ "()"
  | none => singleton ++ "." ++ singletonAccessor ++ "()"

/-- The expression with the singleton class under its simple name. -/
def text (source : Source) : String := source.expression source.singleton.simple

/-- The expression with the singleton class under its qualified name. -/
def qualified (source : Source) : String := source.expression source.singleton.qualified

end Source

/-- One statement of an injector: a field and what is assigned to it. -/
structure Assignment where
  /-- The field. -/
  field : String
  /-- What is assigned. -/
  source : Source
  deriving DecidableEq, Repr

/-- The text of an assignment, without the object that has the field. -/
def Assignment.text (assignment : Assignment) : String :=
  assignment.field ++ " = " ++ assignment.source.text

/-- A generated injector class. -/
structure Injector where
  /-- The class name. -/
  name : String
  /-- The package, that of the consumer. -/
  package : String
  /-- The type of the constructor parameter. -/
  parameter : TypeRef
  /-- The singleton that the assignments read from. -/
  component : TypeRef
  /-- The assignments in the order of the fields. -/
  assignments : List Assignment
  deriving DecidableEq, Repr

namespace Injector

/-- The qualified name of the injector. -/
def qualified (injector : Injector) : String := qualify injector.package injector.name

/-- The injector of a consumer with the given bindings to a component. -/
def ofBindings (consumer : Consumer) (component : Component) (bindings : List Binding) :
    Injector where
  name := injectorName consumer.name
  package := consumer.package
  parameter := consumer.type
  component := component.singleton
  assignments := bindings.map fun binding =>
    ⟨binding.field.name, ⟨component.singleton, binding.resolution.accessor?⟩⟩

end Injector

end PreferenceInjector
