import PreferenceInjector.Proofs.Reported
import PreferenceInjector.Proofs.Settings.Entries
import PreferenceInjector.Settings.Basic

/-!
# Keys with a meaning

Six keys have a meaning, in three tables. A layer that has tables under these names gives each key
a value or none, and the settings are taken from these values alone: the keys are looked at in a
fixed order, one without a value has its default, and the first value that is not a text is
reported.
-/

namespace PreferenceInjector.Settings

/-- The keys with a meaning. -/
inductive KnownKey where
  | inputDir
  | extension
  | indent
  | javadoc
  | annotationType
  | outputDir
  deriving DecidableEq, Repr

namespace KnownKey

/-- The table that a key stands in. -/
def table : KnownKey → String
  | inputDir | extension => "input"
  | indent | javadoc | annotationType => "java"
  | outputDir => "output"

/-- The name of a key in its table. -/
def name : KnownKey → String
  | inputDir => "dir"
  | extension => "extension"
  | indent => "indent"
  | javadoc => "javadoc"
  | annotationType => "non_null_annotation"
  | outputDir => "dir"

/-- What is expected under a key. -/
def expected : KnownKey → String
  | inputDir | outputDir => directoryText
  | extension | indent | javadoc | annotationType => anyText

/-- The path of a key. -/
def path (key : KnownKey) : List String := [key.table, key.name]

/-- The order in which the values of the keys are looked at. -/
def inOrder : List KnownKey := [inputDir, extension, indent, javadoc, annotationType, outputDir]

end KnownKey

/-- The text of a key. -/
def text (settings : Settings) : KnownKey → String
  | .inputDir => settings.inputDir
  | .extension => settings.extension
  | .indent => settings.java.indent
  | .javadoc => settings.java.javadoc
  | .annotationType => settings.java.annotationType
  | .outputDir => settings.outputDir

/-- The text that a value is, if it is one. -/
def Setting.text? : Setting → Option String
  | .scalar _ (.text value) => some value
  | _ => none

/-- The entries of the table under a name, none if there is no table. -/
def tableAt (name : String) (layer : List (String × Setting)) : List (String × Setting) :=
  match lookup name layer with
  | some (.table _ entries) => entries
  | _ => []

/-- The value that a layer gives a key. -/
def KnownKey.given? (key : KnownKey) (layer : List (String × Setting)) : Option Setting :=
  lookup key.name (tableAt key.table layer)

/-- Where a layer has anything under the name of a table with known keys, it has a table. -/
def GivesTables (layer : List (String × Setting)) : Prop :=
  ∀ (key : KnownKey) (setting : Setting), lookup key.table layer = some setting →
    ∃ origin entries, setting = .table origin entries

/-- Whether a value is a table. -/
def Setting.isTable : Setting → Bool
  | .table .. => true
  | .scalar .. | .list .. => false

/-- Every key with a meaning has its turn. -/
theorem KnownKey.mem_inOrder (key : KnownKey) : key ∈ KnownKey.inOrder := by
  cases key <;> decide

/-- Whether a layer gives tables is decided by looking under their names. -/
theorem givesTables_iff {layer : List (String × Setting)} : GivesTables layer ↔
    ∀ key ∈ KnownKey.inOrder, (lookup key.table layer).all Setting.isTable = true := by
  have hisTable : ∀ setting : Setting,
      setting.isTable = true ↔ ∃ origin entries, setting = .table origin entries := by
    rintro (_ | _ | _) <;> simp [Setting.isTable]
  simp only [GivesTables, Option.all_eq_true, hisTable]
  exact ⟨fun h key _ => h key, fun h key => h key key.mem_inOrder⟩

instance (layer : List (String × Setting)) : Decidable (GivesTables layer) :=
  decidable_of_iff _ givesTables_iff.symm

/-- The slot of a key. -/
def KnownKey.slot (key : KnownKey) : Slot := ⟨key.name, key.expected, ({} : Settings).text key⟩

/-- The text of a key, from its value or by default. -/
def KnownKey.read (key : KnownKey) (given : Option Setting) : Except SettingsError String :=
  key.slot.read key.path given

/-- The settings with the given texts, in the order of the keys. -/
def ofTexts : List String → Settings
  | [inputDir, extension, indent, javadoc, annotationType, outputDir] =>
    { inputDir, extension, outputDir, java := { javadoc, annotationType, indent } }
  | _ => {}

/-- The text that a layer has for a key. -/
def KnownKey.readFrom (layer : List (String × Setting)) (key : KnownKey) :
    Except SettingsError String :=
  key.read (key.given? layer)

variable {layer : List (String × Setting)} {key : KnownKey} {setting : Setting}

/-- A value is read when it is a text, and reported otherwise. -/
theorem KnownKey.read_some (key : KnownKey) (setting : Setting) : key.read (some setting) =
    match setting.text? with
    | some value => .ok value
    | none => .error (setting.mismatch key.path key.expected) := by
  rcases setting with ⟨origin, _ | _ | _ | _ | _⟩ | _ | _ <;> rfl

/-- A value is read exactly as the text that it is. -/
theorem KnownKey.read_some_eq_ok_iff {value : String} :
    key.read (some setting) = .ok value ↔ setting.text? = some value := by
  rw [KnownKey.read_some]
  cases setting.text? <;> simp

/-- A value is reported exactly when it is no text. -/
theorem KnownKey.read_some_eq_error_iff {error : SettingsError} :
    key.read (some setting) = .error error ↔
      setting.text? = none ∧ error = setting.mismatch key.path key.expected := by
  rw [KnownKey.read_some]
  cases setting.text? <;> simp [eq_comm]

/-! ### Sections -/

/-- The text for a slot of a section. -/
def Slot.readAt (slot : Slot) (name : String) (layer : List (String × Setting)) :
    Except SettingsError String :=
  slot.read [name, slot.key] (lookup slot.key (tableAt name layer))

/-- A section that is a table or missing is read slot by slot. -/
theorem readSection_lookup (name title : String) (slots : List Slot)
    (h : ∀ setting, lookup name layer = some setting → ∃ origin entries,
      setting = .table origin entries) :
    readSection name title slots (lookup name layer) =
      (do
        discard <| (slots.mergeSort fun a b => decide (a.key ≤ b.key)).mapM (·.readAt name layer)
        slots.mapM (·.readAt name layer)) := by
  cases hfound : lookup name layer with
  | none =>
    have hread : (fun slot : Slot => slot.readAt name layer) = fun slot => pure slot.fallback := by
      funext slot
      rw [Slot.readAt, tableAt, hfound]
      rfl
    simp only [hread, List.mapM_pure]
    rfl
  | some setting =>
    obtain ⟨origin, entries, rfl⟩ := h setting hfound
    have hread : (fun slot : Slot => slot.readAt name layer) =
        fun slot => slot.read [name, slot.key] (lookup slot.key entries) := by
      funext slot
      rw [Slot.readAt, tableAt, hfound]
    rw [hread]
    rfl

/-- The section on declaration files is read key by key. -/
theorem readSection_input (h : GivesTables layer) :
    readSection "input" "InputConfig" (inputSlots {}) (lookup "input" layer) =
      [KnownKey.inputDir, KnownKey.extension].mapM (KnownKey.readFrom layer) := by
  have hslots : ((inputSlots {}).mergeSort fun a b => decide (a.key ≤ b.key)) = inputSlots {} := by
    simp [inputSlots, List.mergeSort, List.MergeSort.Internal.splitInTwo]
  have hread : (inputSlots {}).mapM (·.readAt "input" layer) =
      [KnownKey.inputDir, KnownKey.extension].mapM (KnownKey.readFrom layer) := rfl
  rw [readSection_lookup "input" _ _ (h .inputDir), hslots, hread]
  cases [KnownKey.inputDir, KnownKey.extension].mapM (KnownKey.readFrom layer) <;> rfl

/-- The section on generated files is read key by key. -/
theorem readSection_output (h : GivesTables layer) :
    readSection "output" "OutputConfig" (outputSlots {}) (lookup "output" layer) =
      [KnownKey.outputDir].mapM (KnownKey.readFrom layer) := by
  have hslots : ((outputSlots {}).mergeSort fun a b => decide (a.key ≤ b.key)) =
      outputSlots {} := by
    simp [outputSlots]
  have hread : (outputSlots {}).mapM (·.readAt "output" layer) =
      [KnownKey.outputDir].mapM (KnownKey.readFrom layer) := rfl
  rw [readSection_lookup "output" _ _ (h .outputDir), hslots, hread]
  cases [KnownKey.outputDir].mapM (KnownKey.readFrom layer) <;> rfl

/-- The section on the text of generated files is read key by key. Its slots stand in another
order than its keys, in which their values are looked at. -/
theorem readSection_java (h : GivesTables layer) :
    readSection "java" "JavaConfig" (javaSlots {}) (lookup "java" layer) =
      (do
        let indent ← KnownKey.indent.readFrom layer
        let javadoc ← KnownKey.javadoc.readFrom layer
        let annotationType ← KnownKey.annotationType.readFrom layer
        return [javadoc, annotationType, indent]) := by
  have hslots : ((javaSlots {}).mergeSort fun a b => decide (a.key ≤ b.key)) =
      [KnownKey.indent.slot, KnownKey.javadoc.slot, KnownKey.annotationType.slot] := by
    simp [javaSlots, List.mergeSort, List.MergeSort.Internal.splitInTwo, KnownKey.slot,
      KnownKey.name, KnownKey.expected, text]
  have hsorted : [KnownKey.indent.slot, KnownKey.javadoc.slot,
      KnownKey.annotationType.slot].mapM (·.readAt "java" layer) =
        [KnownKey.indent, KnownKey.javadoc, KnownKey.annotationType].mapM
          (KnownKey.readFrom layer) := rfl
  have hread : (javaSlots {}).mapM (·.readAt "java" layer) =
      [KnownKey.javadoc, KnownKey.annotationType, KnownKey.indent].mapM
        (KnownKey.readFrom layer) := rfl
  rw [readSection_lookup "java" _ _ (h .javadoc), hslots, hsorted, hread]
  simp only [List.mapM_cons, List.mapM_nil]
  cases KnownKey.indent.readFrom layer with
  | error => rfl
  | ok indent =>
    cases KnownKey.javadoc.readFrom layer with
    | error => rfl
    | ok javadoc => cases KnownKey.annotationType.readFrom layer <;> rfl

/-- The settings of a layer are taken key by key. -/
theorem ofEntries_eq (h : GivesTables layer) :
    ofEntries layer = (KnownKey.inOrder.mapM (KnownKey.readFrom layer)).map ofTexts := by
  rw [ofEntries]
  simp only [readSection_input h, readSection_java h, readSection_output h, KnownKey.inOrder,
    List.mapM_cons, List.mapM_nil]
  cases KnownKey.inputDir.readFrom layer with
  | error => rfl
  | ok inputDir =>
    cases KnownKey.extension.readFrom layer with
    | error => rfl
    | ok extension =>
      cases KnownKey.indent.readFrom layer with
      | error => rfl
      | ok indent =>
        cases KnownKey.javadoc.readFrom layer with
        | error => rfl
        | ok javadoc =>
          cases KnownKey.annotationType.readFrom layer with
          | error => rfl
          | ok annotationType => cases KnownKey.outputDir.readFrom layer <;> rfl

/-- Settings are taken from a layer when they have the text of every key. -/
theorem ofEntries_eq_ok_iff (h : GivesTables layer) {settings : Settings} :
    ofEntries layer = .ok settings ↔
      ∀ key, KnownKey.readFrom layer key = .ok (settings.text key) := by
  rw [ofEntries_eq h, except_map_eq_ok]
  simp only [mapM_eq_ok, KnownKey.inOrder]
  constructor
  · rintro ⟨texts, htexts, rfl⟩
    simp only [List.forall₂_cons_left_iff, List.forall₂_nil_left_iff] at htexts
    obtain ⟨_, _, hinputDir, ⟨_, _, hextension, ⟨_, _, hindent, ⟨_, _, hjavadoc, ⟨_, _, htype,
      ⟨_, _, houtputDir, rfl, rfl⟩, rfl⟩, rfl⟩, rfl⟩, rfl⟩, rfl⟩ := htexts
    rintro (_ | _) <;> assumption
  · intro hkeys
    refine ⟨KnownKey.inOrder.map settings.text, ?_, rfl⟩
    exact List.forall₂_map_right_iff.mpr (List.forall₂_same.mpr fun key _ => hkeys key)

/-- The first value that is no text is reported. -/
theorem ofEntries_eq_error_iff (h : GivesTables layer) {error : SettingsError} :
    ofEntries layer = .error error ↔ ∃ before key later,
      KnownKey.inOrder = before ++ key :: later ∧
      (∀ earlier ∈ before, ∃ value, KnownKey.readFrom layer earlier = .ok value) ∧
      KnownKey.readFrom layer key = .error error := by
  rw [ofEntries_eq h, except_map_eq_error, mapM_eq_error_iff]

end PreferenceInjector.Settings
