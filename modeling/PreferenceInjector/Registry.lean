import PreferenceInjector.Declaration.File
import PreferenceInjector.Injector

/-!
# The registry of declarations and the generation pass

A pass first registers the components and classes of all files and then builds an injector for
every class that a component injects, so a component may inject a class of a later file. Names
are unique among components and among classes. An injected class must be declared and must be
injected once only; these conditions are checked for all components before any field is resolved.
A pass that fails anywhere yields no injector at all.
-/

namespace PreferenceInjector

open Declaration (Entry File)

/-- All declarations of a pass, in the order of their registration. -/
structure Registry where
  /-- The components with the classes they inject. -/
  entries : List Entry := []
  /-- The classes. -/
  consumers : List Consumer := []
  deriving DecidableEq

/-- A component that injects a class, the class given by its qualified name. -/
structure Request where
  /-- The component. -/
  component : Component
  /-- The qualified name of the class. -/
  target : String
  deriving DecidableEq

namespace Registry

/-- The registered components in order. -/
def components (registry : Registry) : List Component := registry.entries.map (·.component)

/-- The class with a qualified name. -/
def consumer? (registry : Registry) (name : String) : Option Consumer :=
  registry.consumers.find? (·.qualified == name)

/-- The registry with one component more, unless one of its name is there. -/
def addComponent (registry : Registry) (entry : Entry) : Except Failure Registry :=
  let name := entry.component.qualified
  if registry.components.any (·.qualified == name) then
    .error (.duplicate (.component name))
  else .ok { registry with entries := registry.entries ++ [entry] }

/-- The registry with one class more, unless one of its name is there. -/
def addConsumer (registry : Registry) (consumer : Consumer) : Except Failure Registry :=
  let name := consumer.qualified
  if (registry.consumer? name).isSome then .error (.duplicate (.consumer name))
  else .ok { registry with consumers := registry.consumers ++ [consumer] }

/-- The registry with the components and then the classes of a file. -/
def addFile (registry : Registry) (file : File) : Except Failure Registry := do
  let withComponents ← file.components.foldlM addComponent registry
  file.classes.foldlM addConsumer withComponents

/-- The registry of all declarations of some files. -/
def ofFiles (files : List File) : Reported Registry := do
  let registry ← Reported.ofExcept (files.foldlM addFile {})
  Reported.report (.registered registry.entries.length registry.consumers.length)
  pure registry

/-- All requests in the order of registration. -/
def requests (registry : Registry) : List Request :=
  registry.entries.flatMap fun entry => entry.injects.map fun target => ⟨entry.component, target⟩

/-- The requested classes with their components. A request fails when its class is not
registered, and when an earlier one, of the same component or of another, has the same class. -/
def grant (registry : Registry) (earlier : List Request) :
    List Request → Except Failure (List (Component × Consumer))
  | [] => .ok []
  | request :: rest =>
    match registry.consumer? request.target with
    | none => .error (.unknownTarget request.component.qualified request.target)
    | some consumer =>
      match earlier.find? (·.target == request.target) with
      | some first =>
        if first.component.qualified = request.component.qualified then
          .error (.duplicate (.inject request.target request.component.qualified))
        else
          .error (.severalComponents request.target first.component.qualified
            request.component.qualified)
      | none => do
        let pairs ← registry.grant (earlier ++ [request]) rest
        .ok ((request.component, consumer) :: pairs)

/-- Every injected class with its component. -/
def pairs (registry : Registry) : Except Failure (List (Component × Consumer)) :=
  registry.grant [] registry.requests

/-- The names of the classes that no component injects, in the order of the names. -/
def skipped (registry : Registry) : List String :=
  let targets := registry.requests.map (·.target)
  ((registry.consumers.map (·.qualified)).filter (! targets.contains ·)).mergeSort
    fun a b => decide (a ≤ b)

/-- The injector of one class for its component. -/
def injectorFor (component : Component) (consumer : Consumer) : Reported Injector := do
  let bindings ← component.bindAll consumer
  let injector := Injector.ofBindings consumer component bindings
  Reported.report (.emitted injector.qualified injector.assignments.length)
  pure injector

/-- The injectors of all injected classes, in the order of the requests. -/
def plan (registry : Registry) : Reported (List Injector) := do
  let pairs ← Reported.ofExcept registry.pairs
  discard <| Reported.forEach (fun name => Reported.report (.skipped name)) registry.skipped
  Reported.forEach (fun (component, consumer) => injectorFor component consumer) pairs

end Registry

/-- The injectors that the declarations of some files ask for. -/
def generate (files : List File) : Reported (List Injector) := do
  let registry ← Registry.ofFiles files
  registry.plan

end PreferenceInjector
