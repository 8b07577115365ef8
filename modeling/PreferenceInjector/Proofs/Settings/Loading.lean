import PreferenceInjector.Proofs.Settings.Variables
import PreferenceInjector.Settings.Load

/-!
# Settings override each other key by key

The environment lies over the project's file, this over the user's file, and this over the
defaults. Documents and variables repeat no key, so the layers lie over each other as they should:
each setting is the value of its key in the highest layer that gives it one, whatever else the
layers hold, and loading fails only if such a value is no text.
-/

namespace PreferenceInjector.Settings

/-- The layer that the file at a path holds: that of a document, or the empty one if there is no
such file. -/
inductive IsLayerOf (tree : FileTree) (path : String) : List (String × Setting) → Prop
  | missing (hfile : findFile? tree path = none) : IsLayerOf tree path []
  | document {place : Place} {text : String} {document : List (String × Value)}
      (hfile : findFile? tree path = some place)
      (htext : { tree with cwd := place }.readText path = .ok text)
      (hdocument : Toml.read? text = some document) :
      IsLayerOf tree path (Value.entriesFrom (.file (shownPath tree place path)) document)

variable {tree : FileTree} {path : String} {layer : List (String × Setting)}

/-- The layer of a file is loaded. -/
theorem IsLayerOf.fileLayer_eq (h : IsLayerOf tree path layer) :
    fileLayer tree path = .ok layer := by
  cases h with
  | missing hfile => rw [fileLayer, hfile]
  | document hfile htext hdocument => simp only [fileLayer, hfile, htext, hdocument]

/-- The layer of a file repeats no key. -/
theorem IsLayerOf.sectionsKeyed (h : IsLayerOf tree path layer) : SectionsKeyed layer := by
  cases h with
  | missing => exact .nil
  | document _ _ hdocument => exact .of_entriesFrom (Toml.wellKeyed_of_read hdocument) _

/-- Without settings files and variables the defaults are in force. -/
theorem loadFrom_of_missing {user project : String} (huser : findFile? tree user = none)
    (hproject : findFile? tree project = none) : loadFrom tree [] user project = .ok {} := by
  rw [loadFrom, fileLayer, huser, fileLayer, hproject]
  exact ofEntries_entries .defaults {}

/-- The settings that are loaded from layers of files and the environment. -/
theorem loadFrom_takenByKey {environment : List (String × String)} {user project : String}
    {userLayer projectLayer : List (String × Setting)} (huser : IsLayerOf tree user userLayer)
    (hproject : IsLayerOf tree project projectLayer)
    (htables : ∀ layer ∈ [Environment.read environment, projectLayer, userLayer],
      GivesTables layer) :
    TakenByKey [Environment.read environment, projectLayer, userLayer, defaultLayer]
      (loadFrom tree environment user project) := by
  simp only [List.forall_mem_cons] at htables
  obtain ⟨hvariables, hinproject, hinuser, -⟩ := htables
  have hload : loadFrom tree environment user project = ofEntries (Setting.overEntries
      (Environment.read environment) (Setting.overEntries projectLayer
        (Setting.overEntries userLayer defaultLayer))) := by
    rw [loadFrom, huser.fileLayer_eq, hproject.fileLayer_eq]
    rfl
  have hkeyed := Environment.sectionsKeyed_read environment
  have hinfiles := hinproject.overEntries hproject.sectionsKeyed.keys
    (hinuser.overEntries huser.sectionsKeyed.keys (givesTables_entries .defaults {}))
  rw [hload]
  refine .of_readFrom (hvariables.overEntries hkeyed.keys hinfiles) (exists_winning (by simp)) ?_
  intro key
  apply readFrom_overEntries hkeyed hvariables
  apply readFrom_overEntries hproject.sectionsKeyed hinproject
  apply readFrom_overEntries huser.sectionsKeyed hinuser
  rw [KnownKey.readFrom, winning, List.findSome?_singleton]

/-- Layers override each other key by key, the environment over the project's file, this over the
user's file and this over the defaults. A key that no two variables set has the value of the
variable that sets it. Nothing but the winning values decides the outcome: surroundings whose
layers agree on them give the same settings or the same error. -/
theorem loadFrom_overrides_by_key {environment : List (String × String)} {user project : String}
    {userLayer projectLayer : List (String × Setting)} (huser : IsLayerOf tree user userLayer)
    (hproject : IsLayerOf tree project projectLayer)
    (htables : ∀ layer ∈ [Environment.read environment, projectLayer, userLayer],
      GivesTables layer) :
    TakenByKey [Environment.read environment, projectLayer, userLayer, defaultLayer]
      (loadFrom tree environment user project) ∧
    ((∀ var ∈ environment, GivesTables (Environment.layerOf var)) →
      ∀ key : KnownKey, Environment.SetOnce key environment → ∀ setting,
        key.given? (Environment.read environment) = some setting ↔
          ∃ var ∈ environment, key.given? (Environment.layerOf var) = some setting) ∧
    ∀ (tree' : FileTree) (environment' : List (String × String)) (user' project' : String)
      (userLayer' projectLayer' : List (String × Setting)), IsLayerOf tree' user' userLayer' →
      IsLayerOf tree' project' projectLayer' →
      (∀ layer ∈ [Environment.read environment', projectLayer', userLayer'], GivesTables layer) →
      (∀ key, winning [Environment.read environment', projectLayer', userLayer', defaultLayer] key =
        winning [Environment.read environment, projectLayer, userLayer, defaultLayer] key) →
      loadFrom tree' environment' user' project' = loadFrom tree environment user project := by
  have htaken := loadFrom_takenByKey huser hproject htables
  refine ⟨htaken, fun hvars key honce setting =>
    Environment.given?_read_eq_some_iff hvars honce, ?_⟩
  intro tree' environment' user' project' userLayer' projectLayer' huser' hproject' htables' heq
  exact (loadFrom_takenByKey huser' hproject' htables').unique htaken heq

/-- A settings file with an indentation that is no text. -/
def configuredText : String := "[java]\nindent = 4\nnon_null_annotation = \"NonNull\"\n"

/-- A directory with the settings file of a project. -/
def configuredTree : FileTree where
  root := .dir [("prefgen.toml", .file configuredText.toUTF8)]

/-- The layer of the settings file. -/
def configuredLayer : List (String × Setting) :=
  Value.entriesFrom (.file "prefgen.toml") ((Toml.read? configuredText).getD [])

/-- A variable gives an indentation in place of the one that is no text; the annotation type beside
it stays, and all other settings have their defaults. -/
theorem loadFrom_overrides_by_key_sample :
    IsLayerOf configuredTree "user.toml" [] ∧
    IsLayerOf configuredTree "prefgen.toml" configuredLayer ∧
    (∀ layer ∈ [Environment.read [("PREFGEN_JAVA__INDENT", "--")], configuredLayer, []],
      GivesTables layer) ∧
    loadFrom configuredTree [("PREFGEN_JAVA__INDENT", "--")] "user.toml" "prefgen.toml" =
      .ok { java := { indent := "--", annotationType := "NonNull" } } := by
  have huser : IsLayerOf configuredTree "user.toml" [] := .missing (by decide +kernel)
  have hproject : IsLayerOf configuredTree "prefgen.toml" configuredLayer := by
    have hfile : findFile? configuredTree "prefgen.toml" = some [] := by decide +kernel
    have htext : configuredTree.readText "prefgen.toml" = .ok configuredText := by rfl
    refine .document hfile htext ?_
    have hread : (Toml.read? configuredText).isSome = true := by decide +kernel
    obtain ⟨document, hdocument⟩ := Option.isSome_iff_exists.mp hread
    rw [hdocument, Option.getD_some]
  have htables : ∀ layer ∈ [Environment.read [("PREFGEN_JAVA__INDENT", "--")], configuredLayer, []],
      GivesTables layer := by decide +kernel
  refine ⟨huser, hproject, htables, ?_⟩
  obtain ⟨htaken, -⟩ := loadFrom_overrides_by_key huser hproject htables
  rw [htaken.loaded]
  intro key
  rw [← Option.bind_eq_some_iff]
  cases key <;> decide +kernel

end PreferenceInjector.Settings
