import PreferenceInjector.Failure

/-!
# Reported events

A pass reports what it did as a list of events beside its outcome, so that a failed pass still
tells what happened before. `Reported` computations run one after the other: events are joined in
order and the first failure ends the run.
-/

namespace PreferenceInjector

/-- How important an event is. -/
inductive Level where
  | debug
  | info
  | warn
  | error
  deriving DecidableEq, Repr

/-- The name of a level. -/
def Level.name : Level → String
  | .debug => "DEBUG"
  | .info => "INFO"
  | .warn => "WARN"
  | .error => "ERROR"

/-- Something that happened during a pass. -/
inductive Event where
  /-- The declaration files of a directory have been listed. -/
  | scanning (count : Nat) (dir : String)
  /-- A declaration turned out to be malformed. -/
  | malformed (text : String)
  /-- All declarations are in the registry. -/
  | registered (components consumers : Nat)
  /-- A class that no component injects. -/
  | skipped (consumer : String)
  /-- All marked fields of a class are resolved. -/
  | resolved (consumer component : String) (bindings : Nat)
  /-- A marked field could not be resolved. -/
  | unresolvable (consumer field typeName : String)
  /-- An injector has been built. -/
  | emitted (injector : String) (assignments : Nat)
  /-- A source file has been written. -/
  | wrote (path : String)
  /-- A source file could not be written. -/
  | writeFailed (path : String) (fault : Fault)
  /-- A written source file could not be removed again. -/
  | removeFailed (path : String) (fault : Fault)
  /-- All source files have been written. -/
  | generated (count : Nat) (dir : String)
  deriving DecidableEq, Repr

namespace Event

/-- The importance of an event. -/
def level : Event → Level
  | scanning .. | generated .. => .info
  | malformed .. | unresolvable .. | writeFailed .. => .error
  | removeFailed .. => .warn
  | registered .. | skipped .. | resolved .. | emitted .. | wrote .. => .debug

/-- The part of the generator that an event comes from. -/
def origin : Event → String
  | scanning .. => "prefgen::scan"
  | malformed .. | unresolvable .. => "prefgen::diagnostic"
  | registered .. | skipped .. | emitted .. => "prefgen::pipeline"
  | resolved .. => "prefgen::resolver"
  | wrote .. | writeFailed .. | removeFailed .. => "prefgen::java"
  | generated .. => "prefgen::cli::generate"

/-- The wording of an event, with its details as `key=value` pairs. -/
def text : Event → String
  | scanning count dir => s!"Scanning {count} declaration file(s) in {dir}"
  | malformed text => s!"malformed declaration message={text}"
  | registered components consumers =>
    s!"registered declarations components={components} consumers={consumers}"
  | skipped consumer => s!"no component injects this class, skipping consumer={consumer}"
  | resolved consumer component bindings =>
    s!"resolved injection targets consumer={consumer} component={component} bindings={bindings}"
  | unresolvable consumer field typeName =>
    s!"unresolvable injection target consumer={consumer} field={field} type_name={typeName}"
  | emitted injector assignments =>
    s!"emitted injector injector={injector} assignments={assignments}"
  | wrote path => s!"Wrote {path}"
  | writeFailed path fault => s!"Failed to write {path}: {fault.text}"
  | removeFailed path fault => s!"Could not remove {path}: {fault.text}"
  | generated count dir => s!"Generated {count} injector(s) in {dir}"

/-- An event as a line with its level. -/
def line (event : Event) : String := s!"{event.level.name} {event.text}"

/-- The wording of an event in the log of the command, where the description of a malformed
declaration follows the event's name without a key. -/
def logText : Event → String
  | malformed text => s!"malformed declaration {text}"
  | event => event.text

/-- An event as a line of the command's log. -/
def logLine (event : Event) : String :=
  s!"{event.level.name} {event.origin}: {event.logText}"

/-- Whether the command's log holds an event: always from `info` upwards, the rest on request. -/
def isLogged (verbose : Bool) (event : Event) : Bool := verbose || event.level != .debug

end Event

/-- A computation that succeeds or fails, with the events reported either way. -/
structure Reported (α : Type) where
  /-- The value computed, or the failure that ended the computation. -/
  outcome : Except Failure α
  /-- What happened, in order. -/
  events : List Event

namespace Reported

variable {α β : Type}

/-- One computation after another; the second does not run when the first fails. -/
protected def bind (first : Reported α) (next : α → Reported β) : Reported β :=
  match first.outcome with
  | .ok a => ⟨(next a).outcome, first.events ++ (next a).events⟩
  | .error failure => ⟨.error failure, first.events⟩

instance : Monad Reported where
  pure a := ⟨.ok a, []⟩
  bind := Reported.bind

/-- A failure that reports nothing. -/
def fail (failure : Failure) : Reported α := ⟨.error failure, []⟩

/-- A single event. -/
def report (event : Event) : Reported Unit := ⟨.ok (), [event]⟩

/-- A plain result as a computation that reports nothing. -/
def ofExcept (result : Except Failure α) : Reported α := ⟨result, []⟩

/-- The failure of a malformed declaration, which is reported as it arises. -/
def malformed (text : String) : Reported α := ⟨.error (.malformed text), [.malformed text]⟩

/-- The failure of an unresolvable field, which is reported as it arises. -/
def unresolvable (consumer field typeName : String) : Reported α :=
  ⟨.error (.unresolvable consumer field typeName), [.unresolvable consumer field typeName]⟩

/-- A computation for each element in turn, up to the first that fails. -/
def forEach (step : α → Reported β) : List α → Reported (List β)
  | [] => pure []
  | a :: rest => do
    let b ← step a
    let bs ← forEach step rest
    pure (b :: bs)

end Reported

end PreferenceInjector
