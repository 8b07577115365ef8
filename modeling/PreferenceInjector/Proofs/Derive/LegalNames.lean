import PreferenceInjector.Proofs.Derive.Deriving

/-!
# Legal names

What is derived for a definition should be an injector all of whose names are legal, or a refusal.
Names are made from the words of the definition only after everything else has been checked, and a
made name that is no identifier ends the expansion abruptly. This happens to a definition whose
component supplies it if the component is written behind `r#` or a model that is used is no
identifier in snake case. A model that is a keyword in snake case is called as it is.
-/

namespace PreferenceInjector.Derive

open Declaration

/-- The names that are made for an injector are identifiers and no keywords: its own, that of the
singleton, and those of the accessors. -/
structure Expansion.NamesAreLegal (expansion : Expansion) : Prop where
  name : IsLegalName expansion.name
  singleton : IsLegalName expansion.singleton.lastName
  accessors : ∀ statement ∈ expansion.statements, ∀ accessor ∈ statement.accessor,
    IsLegalName accessor

/-- The injector derived for the definition has legal names, or else the definition is refused and
the expansion does not end abruptly. -/
def Item.DerivesSoundly (item : Item) : Prop :=
  match expand item with
  | .ok expansion => expansion.NamesAreLegal
  | .error refusal => refusal.isAbrupt = false

/-! ### Made names -/

variable {name : String}

/-- An identifier goes on with the characters of names. -/
theorem isIdentifier_append (h : isIdentifier name.toList = true) {ending : String}
    (hending : ending.toList.all continuesName = true) :
    isIdentifier (name ++ ending).toList = true := by
  rw [String.toList_append]
  cases hname : name.toList with
  | nil =>
    rw [hname] at h
    cases h
  | cons c rest =>
    rw [hname, isIdentifier, Bool.and_eq_true] at h
    rw [List.cons_append, isIdentifier, List.all_append, h.1, h.2, hending]
    rfl

/-- The name of an injector ends like no keyword. -/
theorem injectorName_notMem {words : List String} (name : String)
    (h : ∀ word ∈ words, "_Injector".toList.isSuffixOf word.toList = false) :
    name ++ "_Injector" ∉ words := by
  intro hmem
  have hends : "_Injector".toList <:+ (name ++ "_Injector").toList := by
    rw [String.toList_append]
    exact List.suffix_append _ _
  have hword := h _ hmem
  rw [List.isSuffixOf_iff_suffix.mpr hends] at hword
  cases hword

/-- An injector of what has a legal name has one. -/
theorem IsLegalName.injector (h : IsLegalName name) : IsLegalName (name ++ "_Injector") := by
  have hending : "_Injector".toList.all continuesName = true := by decide
  have hkeyword : name ++ "_Injector" ∉ keywords := injectorName_notMem name (by decide)
  refine ⟨?_, by simpa [isKeyword] using hkeyword⟩
  rcases h.1 with hplain | ⟨plain, rfl, hplain, -⟩
  · exact .inl (isIdentifier_append hplain hending)
  · exact .inr ⟨plain ++ "_Injector", String.append_assoc, isIdentifier_append hplain hending,
      injectorName_notMem plain (by decide)⟩

/-- The singleton of a component is named by an identifier when the component is. -/
theorem isIdentifier_singletonName_iff (h : IsWord name) :
    isIdentifier ("PreferenceComponent_" ++ name).toList = true ↔
      isIdentifier name.toList = true := by
  constructor
  · intro hidentifier
    rcases h with hplain | ⟨plain, rfl, -⟩
    · exact hplain
    · have hsign : continuesName '#' = true :=
        continuesName_of_mem hidentifier (by simp [String.toList_append])
      exact absurd hsign (by decide)
  · intro hplain
    have hstem : isIdentifier "PreferenceComponent_".toList = true := by decide
    exact isIdentifier_append hstem
      (List.all_eq_true.mpr fun c hc => continuesName_of_mem hplain hc)

/-! ### Abrupt endings -/

variable {item : Item} {path : Path} {wrappers : List String} {refusal : Refusal}

/-- What is no identifier cannot be generated. -/
theorem isAbrupt_of_generatedName (h : generatedName name = .error refusal) :
    refusal.isAbrupt = true := by
  rw [generatedName] at h
  split at h
  · cases h
  · split at h
    · cases h
      rfl
    · cases h
      rfl

/-- A statement can only fail for its accessor. -/
theorem isAbrupt_of_ofAssignment {assignment : Assignment}
    (h : Statement.ofAssignment assignment = .error refusal) : refusal.isAbrupt = true := by
  rw [Statement.ofAssignment] at h
  split at h
  · cases h
  · rcases except_bind_eq_error.mp h with hname | ⟨_, -, hdone⟩
    · exact isAbrupt_of_generatedName hname
    · cases hdone

/-- A definition without named fields is refused in due form. -/
theorem isAbrupt_of_namedFields (h : item.namedFields = .error refusal) :
    refusal.isAbrupt = false := by
  rw [Item.namedFields] at h
  split at h
  · cases h
  · cases h
    rfl
  · cases h
    rfl

/-- Attributes without a component are refused in due form. -/
theorem isAbrupt_of_argumentsOf {attributes : List Attribute}
    (h : argumentsOf attributes = .error refusal) : refusal.isAbrupt = false := by
  rw [argumentsOf] at h
  split at h
  · split at h
    · cases h
      rfl
    · cases h
      rfl
    · cases h
  · cases h
    rfl

/-- What fails in a component or a field is refused in due form. -/
theorem isAbrupt_of_mapError {ε α : Type} {change : ε → Failure} {result : Except ε α}
    (h : (result.mapError fun flaw => Refusal.failed (change flaw)) = .error refusal) :
    refusal.isAbrupt = false := by
  cases result with
  | ok a => cases h
  | error flaw =>
    cases h
    rfl

/-- A definition that is not expanded ends abruptly exactly when the component supplies it. -/
theorem Item.IsLexed.isAbrupt_iff (hitem : item.IsLexed) (h : expand item = .error refusal) :
    refusal.isAbrupt = true ↔ ∃ fields path wrappers, item.IsSupplied fields path wrappers := by
  constructor
  · intro habrupt
    have hdue : ¬ refusal.isAbrupt = false := by simp [habrupt]
    rw [expand, except_bind_eq_error] at h
    rcases h with h | ⟨fields, hfields, h⟩
    · exact (hdue (isAbrupt_of_namedFields h)).elim
    rw [except_bind_eq_error] at h
    rcases h with h | ⟨⟨path, wrappers⟩, harguments, h⟩
    · exact (hdue (isAbrupt_of_argumentsOf h)).elim
    rw [except_bind_eq_error] at h
    rcases h with h | ⟨component, hcomponent, h⟩
    · exact (hdue (isAbrupt_of_mapError h)).elim
    rw [except_bind_eq_error] at h
    rcases h with h | ⟨bindings, hbindings, -⟩
    · exact (hdue (isAbrupt_of_mapError h)).elim
    let described : Described :=
      ⟨item, fields, path, wrappers, namedFields_eq_ok.mp hfields, harguments⟩
    have hresolves := Component.exists_wires.mp
      ⟨_, Component.wires_iff_bindAll.mpr ⟨bindings, mapError_eq_ok.mp hbindings, rfl⟩⟩
    exact ⟨fields, path, wrappers,
      (described.isSupplied_iff hitem).mp ⟨component, mapError_eq_ok.mp hcomponent, hresolves⟩⟩
  · rintro ⟨fields, path, wrappers, hsupplied⟩
    obtain ⟨component, hcomponent, hresolves⟩ :=
      (hsupplied.structure.isSupplied_iff hitem).mpr hsupplied
    obtain ⟨injector, hwires⟩ := Component.exists_wires.mpr hresolves
    obtain ⟨bindings, hbindings, rfl⟩ := Component.wires_iff_bindAll.mp hwires
    change componentOf path wrappers = .ok component at hcomponent
    change (component.bindAll (consumerOf item.name fields)).outcome = .ok bindings at hbindings
    -- Every step before the names succeeds.
    rw [expand, except_bind_of_ok (namedFields_eq_ok.mpr hsupplied.shape),
      except_bind_of_ok (argumentsOf_eq_ok.mpr hsupplied.described)] at h
    dsimp only at h
    rw [except_bind_of_ok (mapError_eq_ok.mpr hcomponent),
      except_bind_of_ok (mapError_eq_ok.mpr hbindings), except_bind_eq_error] at h
    rcases h with h | ⟨singleton, -, h⟩
    · exact isAbrupt_of_generatedName h
    rcases except_bind_eq_error.mp h with h | ⟨statements, -, hdone⟩
    · obtain ⟨assignment, -, h⟩ := exists_of_mapM_eq_error h
      exact isAbrupt_of_ofAssignment h
    · cases hdone

/-! ### Written names -/

variable {expansion : Expansion}

/-- The accessors of the statements are the models that are used, in snake case. -/
theorem Item.IsLexed.exists_statement_iff (hitem : item.IsLexed)
    (h : expand item = .ok expansion) (accessor : String) :
    (∃ statement ∈ expansion.statements, statement.accessor = some accessor) ↔
      ∃ model, item.Uses model ∧ snakeCase model = accessor := by
  obtain ⟨described, rfl⟩ := exists_described h
  obtain ⟨component, injector, statements, hcomponent, hwires, -, hstatements, rfl⟩ :=
    expand_eq_ok.mp h
  simp only [← described.uses_iff hitem hcomponent]
  constructor
  · rintro ⟨statement, hstatement, hcalled⟩
    obtain ⟨assignment, hassignment, hwrites⟩ := exists_of_forall₂_mem hstatements hstatement
    obtain ⟨field, hfield, hfills⟩ := exists_of_forall₂_mem hwires.assignments hassignment
    rw [hwrites.accessor, Option.map_eq_some_iff] at hcalled
    obtain ⟨model, hmodel, rfl⟩ := hcalled
    have htype := hfills.accessor_eq_some_iff.mp hmodel
    have howned := hfills.accessor
    rw [hmodel] at howned
    have hlisted := ((wrappers_of_componentOf hcomponent).2 _).mp howned.1
    exact ⟨model, ⟨htype ▸ hlisted, field, hfield, htype⟩, rfl⟩
  · rintro ⟨model, ⟨-, field, hfield, htype⟩, rfl⟩
    obtain ⟨accessor, haccessor, hspelled⟩ :=
      exists_of_forall₂_mem (isSpelled_snakeCase hwires hstatements).flip hfield
    obtain ⟨statement, hstatement, rfl⟩ := List.mem_map.mp haccessor
    exact ⟨statement, hstatement, hspelled model htype⟩

/-- A path whose last segment is renamed ends in the new name. -/
theorem lastName_renamed (h : IsWord path.lastName) (name : String) :
    (path.renamed fun _ => name).lastName = name := by
  rw [Path.lastName] at h
  cases hlast : path.names.getLast? with
  | none =>
    rw [hlast] at h
    exact (h.ne_empty rfl).elim
  | some last =>
    obtain ⟨parts, hparts⟩ := List.getLast?_eq_some_iff.mp hlast
    rw [Path.lastName, Path.names_renamed hparts, List.getLast?_concat]
    rfl

/-- The names of a derived injector are legal when no accessor is a keyword. -/
theorem Item.IsLexed.namesAreLegal_iff (hitem : item.IsLexed) (h : expand item = .ok expansion) :
    expansion.NamesAreLegal ↔ ∀ model, item.Uses model → isKeyword (snakeCase model) = false := by
  have hnames := hitem.namesAreIdentifiers h
  have haccessors := hitem.exists_statement_iff h
  constructor
  · intro hlegal model huses
    obtain ⟨statement, hstatement, hcalled⟩ := (haccessors _).mpr ⟨model, huses, rfl⟩
    exact (hlegal.accessors statement hstatement _ hcalled).2
  · intro hkeyword
    refine ⟨?_, ?_, fun statement hstatement accessor hcalled => ?_⟩
    · obtain ⟨described, rfl⟩ := exists_described h
      obtain ⟨_, injector, _, -, hwires, -, -, rfl⟩ := expand_eq_ok.mp h
      have hname : injector.name = described.item.name ++ "_Injector" := hwires.name
      exact hname ▸ hitem.name.injector
    · obtain ⟨described, rfl⟩ := exists_described h
      obtain ⟨component, _, _, -, -, hsingleton, -, rfl⟩ := expand_eq_ok.mp h
      rw [lastName_renamed (isWord_lastName (argumentsOf_eq_ok.mp described.arguments))]
      exact ⟨.inl hsingleton, isKeyword_singletonName component.className⟩
    · obtain ⟨model, huses, rfl⟩ := (haccessors _).mp ⟨statement, hstatement, hcalled⟩
      exact ⟨.inl (hnames.accessors model huses), hkeyword model huses⟩

/-- What is supplied has identifiers for names when its singleton and its accessors are ones. -/
theorem Item.IsSupplied.namesAreIdentifiers_iff {fields : List NamedField}
    (h : item.IsSupplied fields path wrappers) :
    item.NamesAreIdentifiers ↔ isIdentifier path.lastName.toList = true ∧
      ∀ model, item.Uses model → isIdentifier (snakeCase model).toList = true := by
  have hsingleton := isIdentifier_singletonName_iff (isWord_lastName h.described)
  constructor
  · intro hnames
    exact ⟨hsingleton.mp (hnames.singleton _ _ h.described), hnames.accessors⟩
  · rintro ⟨hlast, haccessors⟩
    refine ⟨fun other others hother => ?_, haccessors⟩
    obtain ⟨rfl, -⟩ := h.described.unique hother
    exact hsingleton.mpr hlast

/-- A definition has an injector with legal names, or is refused in due form, exactly when the names
that are made for it are identifiers and its accessors are no keywords, in case that its
component supplies it. -/
theorem derivesSoundly_iff {text : String} (h : Item.ofText? text = some item) :
    item.DerivesSoundly ↔ ∀ fields path wrappers, item.IsSupplied fields path wrappers →
      isIdentifier path.lastName.toList = true ∧
        ∀ model, item.Uses model →
          isIdentifier (snakeCase model).toList = true ∧ isKeyword (snakeCase model) = false := by
  have hitem := isLexed_of_ofText? h
  rw [Item.DerivesSoundly]
  cases hexpand : expand item with
  | ok expansion =>
    have hnames := hitem.namesAreIdentifiers hexpand
    obtain ⟨fields, path, wrappers, hsupplied⟩ :=
      (hitem.exists_expand_iff hnames).mp ⟨expansion, hexpand⟩
    change expansion.NamesAreLegal ↔ _
    rw [hitem.namesAreLegal_iff hexpand]
    constructor
    · intro hkeyword fields path wrappers hsupplied
      obtain ⟨hlast, haccessors⟩ := hsupplied.namesAreIdentifiers_iff.mp hnames
      exact ⟨hlast, fun model huses => ⟨haccessors model huses, hkeyword model huses⟩⟩
    · intro hlegal model huses
      exact ((hlegal _ _ _ hsupplied).2 model huses).2
  | error refusal =>
    change refusal.isAbrupt = false ↔ _
    rw [← Bool.not_eq_true, hitem.isAbrupt_iff hexpand]
    constructor
    · intro hnone fields path wrappers hsupplied
      exact (hnone ⟨fields, path, wrappers, hsupplied⟩).elim
    · rintro hlegal ⟨fields, path, wrappers, hsupplied⟩
      obtain ⟨hlast, haccessors⟩ := hlegal _ _ _ hsupplied
      have hnames := hsupplied.namesAreIdentifiers_iff.mpr
        ⟨hlast, fun model huses => (haccessors model huses).1⟩
      obtain ⟨expansion, hexpansion⟩ :=
        (hitem.exists_expand_iff hnames).mpr ⟨fields, path, wrappers, hsupplied⟩
      cases hexpand.symm.trans hexpansion

/-! ### Models that are no names -/

/-- A structure whose only field has the wrapper of the model as its type. -/
def modelSource (model : String) : String :=
  "#[injector(component = \"C\", wrappers(Preference_" ++ model ++ "))] struct K \x7b " ++
    "#[inject_preference] a: Preference_" ++ model ++ " \x7d"

/-- The definition that is read from the source. -/
def modelItem (model : String) : Item where
  attributes := [⟨.ofNames false ["injector"], .list
    [.name "component", .mark '=' false, .literal "\"C\"", .mark ',' false,
      .name "wrappers", .group .round [.name ("Preference_" ++ model)]]⟩]
  visibility := []
  name := "K"
  parameters := []
  conditions := []
  shape := .named [⟨[⟨.ofNames false ["inject_preference"], .bare⟩], "a",
    .path (.ofNames false ["Preference_" ++ model])⟩]

/-- The injector that is derived for the model `Type` calls a keyword, and the theorem says so. -/
theorem derivesSoundly_iff_type :
    Item.ofText? (modelSource "Type") = some (modelItem "Type") ∧
    (expand (modelItem "Type")).map (·.statements) = .ok [⟨"a", some "type"⟩] ∧
    ((modelItem "Type").DerivesSoundly ↔
      ∀ fields path wrappers, (modelItem "Type").IsSupplied fields path wrappers →
        isIdentifier path.lastName.toList = true ∧
          ∀ model, (modelItem "Type").Uses model →
            isIdentifier (snakeCase model).toList = true ∧ isKeyword (snakeCase model) = false) :=
  have hread : Item.ofText? (modelSource "Type") = some (modelItem "Type") := by decide +kernel
  ⟨hread, by decide +kernel, derivesSoundly_iff hread⟩

/-- Not every definition has an injector with legal names or is refused in due form: with a number
as the model of a wrapper, the expansion ends abruptly. -/
theorem numbered_model_ends_abruptly :
    ¬ ∀ text item, Item.ofText? text = some item → item.DerivesSoundly := by
  intro h
  have hread : Item.ofText? (modelSource "1") = some (modelItem "1") := by decide +kernel
  have hexpand : expand (modelItem "1") = .error .numberAsName := by decide +kernel
  have hsound := h _ _ hread
  rw [Item.DerivesSoundly, hexpand] at hsound
  cases hsound

end PreferenceInjector.Derive
