import PreferenceInjector.Name
import PreferenceInjector.Event
import PreferenceInjector.Text.WhiteSpace

/-!
# Components and consumer classes

A component owns a set of wrappers, kept in the order in which they are first named. It is built
from the texts of its declaration, and building fails exactly when the class name has no visible
character or some name in the list has not the form of a wrapper name. A consumer class has
fields, some of which are marked for injection.
-/

namespace PreferenceInjector

/-- The list without repetitions, each element at the place of its first occurrence. -/
def firstSeen : List String → List String
  | [] => []
  | name :: rest => name :: (firstSeen rest).filter (· != name)

/-- The same elements are in a list without its repetitions. -/
theorem mem_firstSeen {name : String} {names : List String} :
    name ∈ firstSeen names ↔ name ∈ names := by
  induction names with
  | nil => simp [firstSeen]
  | cons n rest ih => by_cases h : name = n <;> simp [firstSeen, ih, h]

/-- Nothing is left twice. -/
theorem firstSeen_nodup (names : List String) : (firstSeen names).Nodup := by
  induction names with
  | nil => simp [firstSeen]
  | cons n rest ih => exact List.nodup_cons.mpr ⟨by simp, List.Pairwise.filter _ ih⟩

/-- Whether some character of a text is not white space. -/
def isVisible (text : String) : Bool := text.toList.any (! isWhiteSpace ·)

/-- Whether a name has the form of a wrapper name: the stem and at least one character more. -/
def isWrapperName (name : String) : Bool := (wrapperAccessor name).isSome

/-- A preference component and the wrappers it owns. -/
structure Component where
  /-- The package of the component. -/
  package : String
  /-- The class name of the component. -/
  className : String
  /-- The simple names of the owned wrappers. -/
  wrappers : List String
  /-- The class name can be seen. -/
  visible : isVisible className = true
  /-- No wrapper is listed twice. -/
  nodup : wrappers.Nodup
  /-- Every wrapper is named as one. -/
  wrapperNames : ∀ w ∈ wrappers, isWrapperName w = true
  deriving DecidableEq

namespace Component

/-- The component with the given package, class name and wrappers, or the flaw of its
declaration; a missing class name is found before a wrong wrapper. -/
def build (package className : String) (names : List String) : Except Flaw Component :=
  if visible : isVisible className = true then
    match wrong : (firstSeen names).find? (! isWrapperName ·) with
    | some name => .error (.foreignWrapper className name)
    | none =>
      .ok {
        package, className, visible
        wrappers := firstSeen names
        nodup := firstSeen_nodup names
        wrapperNames := by simpa using wrong }
  else .error (.unnamed package)

/-- `build`, reporting a malformed declaration. -/
def declare (package className : String) (names : List String) : Reported Component :=
  match build package className names with
  | .ok component => pure component
  | .error flaw => Reported.malformed flaw.text

/-- Whether a simple name is that of an owned wrapper. -/
def owns (component : Component) (name : String) : Bool := component.wrappers.contains name

/-- The name of the component's singleton class. -/
def singletonName (component : Component) : String :=
  PreferenceInjector.singletonName component.className

/-- The component's singleton class. -/
def singleton (component : Component) : TypeRef := ⟨component.package, component.singletonName⟩

/-- The qualified name of the component. -/
def qualified (component : Component) : String := qualify component.package component.className

end Component

/-- A field of a consumer class. -/
structure Field where
  /-- The name of the field. -/
  name : String
  /-- The type as it is written, possibly qualified. -/
  type : String
  /-- Whether the field is marked for injection. -/
  marked : Bool
  deriving DecidableEq, Repr

/-- A class whose marked fields are filled by its injector. -/
structure Consumer where
  /-- The package of the class. -/
  package : String
  /-- The class name. -/
  name : String
  /-- The fields in declaration order. -/
  fields : List Field
  deriving DecidableEq, Repr

namespace Consumer

/-- The qualified name of the class. -/
def qualified (consumer : Consumer) : String := qualify consumer.package consumer.name

/-- The class as a type. -/
def type (consumer : Consumer) : TypeRef := ⟨consumer.package, consumer.name⟩

/-- The fields that are marked for injection, in declaration order. -/
def markedFields (consumer : Consumer) : List Field := consumer.fields.filter (·.marked)

end Consumer

end PreferenceInjector
