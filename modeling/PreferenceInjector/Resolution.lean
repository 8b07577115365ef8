import PreferenceInjector.Component

/-!
# Resolution of marked fields

A marked field is filled from the component that injects its class: with one of the wrappers the
component owns, or with the component itself. Only the simple name of the field's type decides,
so a qualified and a bare type resolve alike. A class resolves when all of its marked fields do;
otherwise the first field that does not is reported.
-/

namespace PreferenceInjector

/-- Where the value of a field comes from. -/
inductive Resolution where
  /-- An owned wrapper, by the singleton's accessor for it. -/
  | wrapper (accessor : String)
  /-- The component singleton itself. -/
  | component
  deriving DecidableEq, Repr

/-- The accessor called on the singleton, if any. -/
def Resolution.accessor? : Resolution → Option String
  | .wrapper accessor => some accessor
  | .component => none

/-- A marked field with the place its value comes from. -/
structure Binding where
  /-- The field. -/
  field : Field
  /-- Where its value comes from. -/
  resolution : Resolution
  deriving DecidableEq, Repr

namespace Component

/-- What a declared type denotes in a component, `none` if neither a wrapper nor the singleton. -/
def resolve? (component : Component) (type : String) : Option Resolution :=
  if component.owns (simpleName type) then
    (wrapperAccessor (simpleName type)).map .wrapper
  else if simpleName type = component.singletonName then some .component
  else none

/-- The binding of one field of a consumer. -/
def bindField (component : Component) (consumer : Consumer) (field : Field) : Reported Binding :=
  match component.resolve? field.type with
  | some resolution => pure ⟨field, resolution⟩
  | none => Reported.unresolvable consumer.qualified field.name (simpleName field.type)

/-- The bindings of all marked fields of a consumer, in declaration order. -/
def bindAll (component : Component) (consumer : Consumer) : Reported (List Binding) := do
  let bindings ← Reported.forEach (component.bindField consumer) consumer.markedFields
  Reported.report (.resolved consumer.qualified component.qualified bindings.length)
  pure bindings

end Component

end PreferenceInjector
