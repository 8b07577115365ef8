import PreferenceInjector.Proofs.Settings.Documents
import PreferenceInjector.Proofs.Settings.KnownKeys

/-!
# Layers of settings

Where layers lie over each other, each key has the value of the highest layer that gives it one.
This needs two things of a layer that lies over others: it repeats no key, and where it names one
of the tables with known keys it has a table there, for anything else would hide the whole table
below. A value that is a table is joined with the one below, but neither of them is a text.
-/

namespace PreferenceInjector.Settings

/-- No key stands in the layer twice, nor in one of its tables. -/
structure SectionsKeyed (layer : List (String × Setting)) : Prop where
  keys : DistinctKeys layer
  sections : ∀ name, DistinctKeys (tableAt name layer)

/-- The value of a key in the first of the layers that gives it one. -/
def winning (layers : List (List (String × Setting))) (key : KnownKey) : Option Setting :=
  layers.findSome? key.given?

variable {layer later earlier : List (String × Setting)} {key : KnownKey}

/-- The empty layer. -/
theorem SectionsKeyed.nil : SectionsKeyed [] := ⟨List.nodup_nil, fun _ => List.nodup_nil⟩

/-! ### One value over another -/

/-- A table stays a table whatever lies below. -/
theorem Setting.exists_table_over (origin : Origin) (entries : List (String × Setting))
    (below : Option Setting) :
    ∃ joined, (Setting.table origin entries).over below = .table origin joined := by
  rcases below with _ | (_ | _ | ⟨_, below⟩)
  · exact ⟨entries, by simp⟩
  · exact ⟨entries, by simp [Setting.over]⟩
  · exact ⟨entries, by simp [Setting.over]⟩
  · exact ⟨Setting.overEntries entries below, by simp [Setting.over]⟩

/-- What lies below a value decides neither whether it is a text nor how it is reported. -/
theorem KnownKey.read_over (key : KnownKey) (setting : Setting) (below : Option Setting) :
    key.read (some (setting.over below)) = key.read (some setting) := by
  cases setting with
  | scalar | list => simp
  | table origin entries =>
    obtain ⟨joined, hjoined⟩ := Setting.exists_table_over origin entries below
    rw [hjoined]
    rfl

/-! ### One layer over another -/

/-- A table of the later layer is laid over what the earlier one has under its name. -/
theorem tableAt_overEntries (hlater : SectionsKeyed later) {name : String} {origin : Origin}
    {entries : List (String × Setting)} (h : lookup name later = some (.table origin entries)) :
    tableAt name (Setting.overEntries later earlier) =
      Setting.overEntries entries (tableAt name earlier) := by
  have hentries : DistinctKeys entries := by simpa [tableAt, h] using hlater.sections name
  rw [tableAt, tableAt, lookup_overEntries hlater.keys, h]
  rcases lookup name earlier with _ | (_ | _ | _)
  · simp [overEntries_nil hentries]
  · simp [Setting.over, overEntries_nil hentries]
  · simp [Setting.over, overEntries_nil hentries]
  · simp [Setting.over]

/-- Under a name that the later layer lacks the earlier one keeps its table. -/
theorem tableAt_overEntries_of_none (hlater : SectionsKeyed later) {name : String}
    (h : lookup name later = none) :
    tableAt name (Setting.overEntries later earlier) = tableAt name earlier := by
  rw [tableAt, tableAt, lookup_overEntries hlater.keys, h]

/-- A key has its value in the later layer over the one below, or the one below. -/
theorem given?_overEntries (hlater : SectionsKeyed later) (htables : GivesTables later)
    (key : KnownKey) : key.given? (Setting.overEntries later earlier) =
      match key.given? later with
      | some setting => some (setting.over (key.given? earlier))
      | none => key.given? earlier := by
  unfold KnownKey.given?
  cases hfound : lookup key.table later with
  | none =>
    have hempty : tableAt key.table later = [] := by rw [tableAt, hfound]
    rw [tableAt_overEntries_of_none hlater hfound, hempty]
    rfl
  | some setting =>
    obtain ⟨origin, entries, rfl⟩ := htables key setting hfound
    have hentries : tableAt key.table later = entries := by rw [tableAt, hfound]
    have hkeys := hlater.sections key.table
    rw [hentries] at hkeys
    rw [tableAt_overEntries hlater hfound, hentries]
    exact lookup_overEntries hkeys key.name (tableAt key.table earlier)

/-- Laying one layer over another repeats no key. -/
theorem SectionsKeyed.overEntries (hlater : SectionsKeyed later)
    (hearlier : SectionsKeyed earlier) : SectionsKeyed (Setting.overEntries later earlier) := by
  refine ⟨hearlier.keys.overEntries later, fun name => ?_⟩
  cases hfound : lookup name later with
  | none =>
    rw [tableAt_overEntries_of_none hlater hfound]
    exact hearlier.sections name
  | some setting =>
    cases setting with
    | scalar | list =>
      rw [tableAt, lookup_overEntries hlater.keys, hfound]
      simp [DistinctKeys]
    | table origin entries =>
      rw [tableAt_overEntries hlater hfound]
      exact (hearlier.sections name).overEntries entries

/-- Laying one layer over another gives tables where both do. -/
theorem GivesTables.overEntries (hkeys : DistinctKeys later) (hlater : GivesTables later)
    (hearlier : GivesTables earlier) : GivesTables (Setting.overEntries later earlier) := by
  intro key setting hsetting
  rw [lookup_overEntries hkeys] at hsetting
  cases hfound : lookup key.table later with
  | none =>
    rw [hfound] at hsetting
    exact hearlier key setting hsetting
  | some own =>
    rw [hfound] at hsetting
    cases hsetting
    obtain ⟨origin, entries, rfl⟩ := hlater key own hfound
    obtain ⟨joined, hjoined⟩ := Setting.exists_table_over origin entries (lookup key.table earlier)
    exact ⟨origin, joined, hjoined⟩

/-! ### Layers from values -/

/-- A layer has the keys of the table that it was made from. -/
theorem keys_entriesFrom (origin : Origin) (entries : List (String × Value)) :
    (Value.entriesFrom origin entries).map (·.1) = entries.map (·.1) := by
  induction entries with
  | nil => rfl
  | cons entry rest ih => rw [Value.entriesFrom, List.map_cons, List.map_cons, ih]

/-- A layer has the values of the table that it was made from. -/
theorem lookup_entriesFrom (origin : Origin) (name : String) (entries : List (String × Value)) :
    lookup name (Value.entriesFrom origin entries) =
      (lookup name entries).map (Value.from origin) := by
  induction entries with
  | nil => rfl
  | cons entry rest ih =>
    rw [Value.entriesFrom, lookup, lookup]
    split
    · rfl
    · exact ih

/-- A layer that was made from a table without repeated keys. -/
theorem SectionsKeyed.of_entriesFrom {entries : List (String × Value)}
    (h : WellKeyed Value.KeysDistinct entries) (origin : Origin) :
    SectionsKeyed (Value.entriesFrom origin entries) := by
  refine ⟨by rw [DistinctKeys, keys_entriesFrom]; exact h.keys, fun name => ?_⟩
  rw [tableAt, lookup_entriesFrom]
  cases hfound : lookup name entries with
  | none => exact List.nodup_nil
  | some value =>
    cases h.lookup hfound with
    | scalar | list => exact List.nodup_nil
    | table hkeys _ =>
      simp only [Option.map_some, Value.from]
      rw [DistinctKeys, keys_entriesFrom]
      exact hkeys

/-! ### The layer at the bottom -/

/-- Settings that are written as a table give each key its text. -/
theorem given?_entries (origin : Origin) (settings : Settings) (key : KnownKey) :
    key.given? (Value.entriesFrom origin settings.entries) =
      some (.scalar origin (.text (settings.text key))) := by
  cases key <;> rfl

/-- Settings that are written as a table have tables under the names of the sections. -/
theorem givesTables_entries (origin : Origin) (settings : Settings) :
    GivesTables (Value.entriesFrom origin settings.entries) := by
  intro key setting hsetting
  cases key <;> cases hsetting <;> exact ⟨origin, _, rfl⟩

/-- Settings that are written as a table are read back from it. -/
theorem ofEntries_entries (origin : Origin) (settings : Settings) :
    ofEntries (Value.entriesFrom origin settings.entries) = .ok settings := by
  rw [ofEntries_eq_ok_iff (givesTables_entries origin settings)]
  intro key
  rw [KnownKey.readFrom, given?_entries, KnownKey.read_some]
  rfl

/-! ### Several layers -/

/-- If a layer has the texts that win below, then laid under another one it has those that win
above. -/
theorem readFrom_overEntries (hlater : SectionsKeyed later) (htables : GivesTables later)
    {layers : List (List (String × Setting))}
    (hearlier : KnownKey.readFrom earlier key = key.read (winning layers key)) :
    KnownKey.readFrom (Setting.overEntries later earlier) key =
      key.read (winning (later :: layers) key) := by
  rw [KnownKey.readFrom, given?_overEntries hlater htables, winning, List.findSome?_cons]
  cases key.given? later with
  | none => exact hearlier
  | some setting => exact key.read_over setting _

/-- Some layer gives each key a value if one of them holds the defaults. -/
theorem exists_winning {layers : List (List (String × Setting))} (h : defaultLayer ∈ layers)
    (key : KnownKey) : ∃ setting, winning layers key = some setting := by
  rw [← Option.isSome_iff_exists, winning, List.findSome?_isSome_iff]
  exact ⟨defaultLayer, h, by rw [defaultLayer, given?_entries]; rfl⟩

/-- The outcome of taking settings from layers, the first one on top: it depends on the winning
value of each key alone. Settings have the texts of all these values, and an error is that of the
first one that is no text. -/
structure TakenByKey (layers : List (List (String × Setting)))
    (outcome : Except SettingsError Settings) : Prop where
  given : ∀ key, ∃ setting, winning layers key = some setting
  loaded : ∀ settings, outcome = .ok settings ↔
    ∀ key, ∃ setting, winning layers key = some setting ∧
      setting.text? = some (settings.text key)
  refused : ∀ error, outcome = .error error ↔ ∃ before key later setting,
    KnownKey.inOrder = before ++ key :: later ∧
    (∀ first ∈ before, ∃ setting value,
      winning layers first = some setting ∧ setting.text? = some value) ∧
    winning layers key = some setting ∧ setting.text? = none ∧
    error = setting.mismatch key.path key.expected

/-- A layer gives the settings of the layers whose texts it has. -/
theorem TakenByKey.of_readFrom {layers : List (List (String × Setting))}
    (htables : GivesTables layer) (hgiven : ∀ key, ∃ setting, winning layers key = some setting)
    (hread : ∀ key, KnownKey.readFrom layer key = key.read (winning layers key)) :
    TakenByKey layers (ofEntries layer) := by
  have hok : ∀ key value, KnownKey.readFrom layer key = .ok value ↔
      ∃ setting, winning layers key = some setting ∧ setting.text? = some value := by
    intro key value
    obtain ⟨setting, hsetting⟩ := hgiven key
    simp [hread, hsetting, KnownKey.read_some_eq_ok_iff]
  have herror : ∀ key error, KnownKey.readFrom layer key = .error error ↔
      ∃ setting, winning layers key = some setting ∧ setting.text? = none ∧
        error = setting.mismatch key.path key.expected := by
    intro key error
    obtain ⟨setting, hsetting⟩ := hgiven key
    simp [hread, hsetting, KnownKey.read_some_eq_error_iff]
  refine ⟨hgiven, fun settings => ?_, fun error => ?_⟩
  · simp only [ofEntries_eq_ok_iff htables, hok]
  · simp only [ofEntries_eq_error_iff htables, hok, herror]
    constructor
    · rintro ⟨before, key, later, hsplit, hbefore, setting, hsetting⟩
      exact ⟨before, key, later, setting, hsplit,
        fun first hfirst => exists_comm.mp (hbefore first hfirst), hsetting⟩
    · rintro ⟨before, key, later, setting, hsplit, hbefore, hsetting⟩
      exact ⟨before, key, later, hsplit, fun first hfirst => exists_comm.mp (hbefore first hfirst),
        setting, hsetting⟩

/-- Layers with the same winning values give the same outcome. -/
theorem TakenByKey.unique {layers layers' : List (List (String × Setting))}
    {outcome outcome' : Except SettingsError Settings} (h : TakenByKey layers outcome)
    (h' : TakenByKey layers' outcome') (heq : ∀ key, winning layers key = winning layers' key) :
    outcome = outcome' := by
  have hloaded : ∀ settings, outcome = .ok settings ↔ outcome' = .ok settings := by
    intro settings
    simp only [h.loaded, h'.loaded, heq]
  have hrefused : ∀ error, outcome = .error error ↔ outcome' = .error error := by
    intro error
    simp only [h.refused, h'.refused, heq]
  cases outcome with
  | ok settings => exact ((hloaded settings).mp rfl).symm
  | error error => exact ((hrefused error).mp rfl).symm

end PreferenceInjector.Settings
