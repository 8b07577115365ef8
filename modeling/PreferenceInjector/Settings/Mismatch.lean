/-!
# Settings that cannot be used

A layer of settings is unusable as a whole when its text is not well formed; a single value is
unusable when it has the wrong kind. The second case tells what was found, what was expected and
where it was written.
-/

namespace PreferenceInjector

/-- Why no settings could be loaded. -/
inductive SettingsError where
  /-- A settings file is not a well-formed document. -/
  | unreadable
  /-- The value under `path` has the wrong kind; `key` is the path as its layer spells it. -/
  | wrongKind (path : List String) (found expected key source : String)
  deriving DecidableEq, Repr

namespace SettingsError

/-- The path of keys that an error is about. -/
def path : SettingsError → List String
  | unreadable => []
  | wrongKind path .. => path

/-- The explanation of a value of the wrong kind. -/
def message? : SettingsError → Option String
  | unreadable => none
  | wrongKind _ found expected key source =>
    some s!"invalid type: found {found}, expected {expected} for key \"{key}\" in {source}"

end SettingsError

end PreferenceInjector
