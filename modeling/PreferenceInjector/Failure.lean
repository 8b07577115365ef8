import PreferenceInjector.FileTree.Fault
import PreferenceInjector.Settings.Mismatch

/-!
# Failures of a generation pass

Every failure ends the pass at once. Each constructor is one cause with the names it is about;
`Failure.message` holds the wording.
-/

namespace PreferenceInjector

/-- What makes a component declaration malformed. -/
inductive Flaw where
  /-- The class name has no visible character. -/
  | unnamed (package : String)
  /-- A listed wrapper does not have the form of a wrapper name. -/
  | foreignWrapper (component wrapper : String)
  deriving DecidableEq, Repr

/-- The description of a flaw. -/
def Flaw.text : Flaw → String
  | .unnamed package => s!"component in package '{package}' has no class name"
  | .foreignWrapper component wrapper =>
    s!"component {component} lists '{wrapper}', which is not a Preference_<Model> wrapper"

/-- What was declared twice. -/
inductive Duplicate where
  /-- Two components with one qualified name. -/
  | component (name : String)
  /-- Two classes with one qualified name. -/
  | consumer (name : String)
  /-- One component injects a class twice. -/
  | inject (target owner : String)
  deriving DecidableEq, Repr

/-- The description of a duplicate. -/
def Duplicate.text : Duplicate → String
  | .component name => s!"component {name}"
  | .consumer name => s!"class {name}"
  | .inject target owner => s!"inject {target} in component {owner}"

/-- Why a generation pass failed. -/
inductive Failure where
  /-- The type of a marked field is neither an owned wrapper nor the component singleton. -/
  | unresolvable (consumer field typeName : String)
  /-- A declaration is malformed, for the reason given. -/
  | malformed (text : String)
  /-- A component injects a class that was not declared. -/
  | unknownTarget (component target : String)
  /-- Something was declared twice. -/
  | duplicate (what : Duplicate)
  /-- Two components inject the same class. -/
  | severalComponents (consumer first second : String)
  /-- A declaration file does not follow the grammar. -/
  | ungrammatical (path report : String)
  /-- A file operation failed. -/
  | file (fault : Fault)
  /-- The settings could not be loaded. -/
  | settings (error : SettingsError)
  deriving DecidableEq, Repr

/-- The wording of a failure; settings errors word themselves, when they do. -/
def Failure.message : Failure → Option String
  | .unresolvable consumer field typeName =>
    some s!"'{typeName}' type can not be injected into {consumer}.{field}"
  | .malformed text => some s!"Malformed declaration: {text}"
  | .unknownTarget component target =>
    some s!"Component {component} injects unknown class '{target}'"
  | .duplicate what => some s!"Duplicate declaration: {what.text}"
  | .severalComponents consumer first second =>
    some s!"Class {consumer} is injected by both {first} and {second}"
  | .ungrammatical path report => some s!"Parse error in {path}: {report}"
  | .file fault => some s!"I/O error: {fault.text}"
  | .settings error => error.message?

end PreferenceInjector
