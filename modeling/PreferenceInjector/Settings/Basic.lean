import PreferenceInjector.CompilationUnit
import PreferenceInjector.Settings.Mismatch
import PreferenceInjector.Settings.Value
import PreferenceInjector.Unicode.Printable

/-!
# Settings

What a pass can be told: where the declarations are, where the sources go and how they are
written. Settings are taken from a table with a section for each of these; a section may also be
a list of its values in their fixed order. Missing values have defaults, keys without a meaning
are ignored, and every value has to be a text. The first value that is not, in the order of the
keys, is reported.
-/

namespace PreferenceInjector

/-- The settings of a pass. -/
structure Settings where
  /-- The directory with the declaration files. -/
  inputDir : String := "prefs"
  /-- The extension of declaration files, without the dot. -/
  extension : String := "prefs"
  /-- The directory of the generated sources. -/
  outputDir : String := "generated"
  /-- How the sources are written. -/
  java : CompilationUnit.Options := {}
  deriving DecidableEq, Repr

namespace Settings

/-- The description of a value by its kind. -/
def Setting.kind : Setting → String
  | .scalar _ (.text value) => "string " ++ Unicode.quoted value
  | .scalar _ (.flag value) => s!"bool {value}"
  | .scalar _ (.signed value) => s!"signed int `{value}`"
  | .scalar _ (.unsigned value) => s!"unsigned int `{value}`"
  | .scalar _ (.decimal value) => s!"float `{value.text}`"
  | .list .. => "sequence"
  | .table .. => "map"

/-- How a layer names itself. -/
def Origin.title : Origin → String
  | .defaults => "defaults"
  | .file path => path ++ " TOML file"
  | .environment => "`PREFGEN_` environment variable(s)"

/-- How a layer spells a path of keys. -/
def Origin.spell (path : List String) : Origin → String
  | .environment => ".".intercalate (path.map String.toUpper)
  | .defaults | .file _ => ".".intercalate ("default" :: path)

/-- The error of a setting that should have been something else. -/
def Setting.mismatch (setting : Setting) (path : List String) (expected : String) :
    SettingsError :=
  .wrongKind path setting.kind expected (setting.origin.spell path) setting.origin.title

/-- A place for a text in a section. -/
structure Slot where
  /-- The key. -/
  key : String
  /-- What is expected there. -/
  expected : String
  /-- The value in use when none is given. -/
  fallback : String
  deriving DecidableEq, Repr

/-- The text for a slot. -/
def Slot.read (slot : Slot) (path : List String) : Option Setting → Except SettingsError String
  | none => .ok slot.fallback
  | some (.scalar _ (.text value)) => .ok value
  | some setting => .error (setting.mismatch path slot.expected)

/-- The texts for the slots of a section, in the order of the slots. -/
def readSection (name title : String) (slots : List Slot) :
    Option Setting → Except SettingsError (List String)
  | none => .ok (slots.map (·.fallback))
  | some (.table _ entries) => do
    let read := fun (slot : Slot) => slot.read [name, slot.key] (lookup slot.key entries)
    discard <| (slots.mergeSort fun a b => decide (a.key ≤ b.key)).mapM read
    slots.mapM read
  | some (.list _ items) =>
    slots.zipIdx.mapM fun (slot, i) => slot.read [name, toString i] items[i]?
  | some setting => .error (setting.mismatch [name] ("struct " ++ title))

/-- What is expected where a directory is to be given. -/
def directoryText : String := "path string"

/-- What is expected where any other text is to be given. -/
def anyText : String := "a string"

/-- The slots of the section on declaration files. -/
def inputSlots (defaults : Settings) : List Slot :=
  [⟨"dir", directoryText, defaults.inputDir⟩, ⟨"extension", anyText, defaults.extension⟩]

/-- The slots of the section on generated files. -/
def outputSlots (defaults : Settings) : List Slot :=
  [⟨"dir", directoryText, defaults.outputDir⟩]

/-- The slots of the section on the text of generated files. -/
def javaSlots (defaults : Settings) : List Slot :=
  [⟨"javadoc", anyText, defaults.java.javadoc⟩,
    ⟨"non_null_annotation", anyText, defaults.java.annotationType⟩,
    ⟨"indent", anyText, defaults.java.indent⟩]

/-- Settings as a table with a section for each of their parts. -/
def entries (settings : Settings) : List (String × Value) :=
  let table := fun (slots : List Slot) => Value.table
    (slots.map fun slot => (slot.key, .scalar (.text slot.fallback)))
  [("input", table (inputSlots settings)), ("output", table (outputSlots settings)),
    ("java", table (javaSlots settings))]

/-- The layer of the values in use when nothing else is said. -/
def defaultLayer : List (String × Setting) := Value.entriesFrom .defaults ({} : Settings).entries

/-- The settings that a table holds. -/
def ofEntries (entries : List (String × Setting)) : Except SettingsError Settings := do
  let defaults : Settings := {}
  let input ← readSection "input" "InputConfig" (inputSlots defaults) (lookup "input" entries)
  let java ← readSection "java" "JavaConfig" (javaSlots defaults) (lookup "java" entries)
  let output ← readSection "output" "OutputConfig" (outputSlots defaults) (lookup "output" entries)
  let text := fun (texts : List String) (i : Nat) => texts[i]?.getD ""
  return {
    inputDir := text input 0
    extension := text input 1
    outputDir := text output 0
    java := { javadoc := text java 0, annotationType := text java 1, indent := text java 2 } }

end Settings

end PreferenceInjector
