import PreferenceInjector.Derive.Item.Reader
import PreferenceInjector.Proofs.Derive.Expansion
import PreferenceInjector.Proofs.Derive.Words

/-!
# Accessors of derived injectors

A field that has a wrapper as its type is filled through the accessor of this wrapper. A generated
injector calls the accessor by the wrapper's model, so that different wrappers have different
accessors. A derived injector calls it by the model in snake case, where models whose words differ
in case only share an accessor. Nobody checks for this: fields of different wrappers are then filled
by the same call.
-/

namespace PreferenceInjector.Derive

open Declaration

/-- A marked field has the wrapper of the model as its type, and the attribute lists the wrapper. -/
def Described.Uses (described : Described) (model : String) : Prop :=
  "Preference_" ++ model ∈ described.wrappers ∧
    ∃ field ∈ described.consumer.markedFields, simpleName field.type = "Preference_" ++ model

/-- Of the accessors of the marked fields in order, those of every two fields that have different
wrappers as their types are called by different names. -/
def Described.AccessorsAreApart (described : Described) (accessors : List (Option String)) : Prop :=
  ∀ one ∈ described.consumer.markedFields.zip accessors,
    ∀ other ∈ described.consumer.markedFields.zip accessors,
      simpleName one.1.type ∈ described.wrappers → simpleName other.1.type ∈ described.wrappers →
        simpleName one.1.type ≠ simpleName other.1.type →
          ∃ first second, one.2 = some first ∧ other.2 = some second ∧ first ≠ second

/-- No two models that are used have the same words. -/
def Described.WordsAreApart (described : Described) : Prop :=
  ∀ model other, described.Uses model → described.Uses other → SameWords model other →
    model = other

/-- The accessor of the wrapper that the field has as its type is its model, as it is spelled. -/
def IsSpelled (spelling : String → String) (field : Field) (accessor : Option String) : Prop :=
  ∀ model, simpleName field.type = "Preference_" ++ model → accessor = some (spelling model)

variable {described : Described} {component : Component} {item : Item} {expansion : Expansion}

/-- What an injector is derived for has named fields and an attribute that describes a component. -/
theorem exists_described (h : expand item = .ok expansion) :
    ∃ described : Described, described.item = item := by
  simp only [expand, except_bind_eq_ok, namedFields_eq_ok] at h
  obtain ⟨fields, hshape, parts, hparts, -⟩ := h
  exact ⟨⟨item, fields, parts.1, parts.2, hshape, hparts⟩, rfl⟩

/-- Every wrapper that the attribute lists has a model if there is a component. -/
theorem Described.exists_model
    (h : componentOf described.path described.wrappers = .ok component) {wrapper : String}
    (hwrapper : wrapper ∈ described.wrappers) : ∃ model, wrapper = "Preference_" ++ model := by
  rw [componentOf, ← outcome_declare_eq_ok] at h
  obtain ⟨-, -, hwrappers⟩ := declare_eq_ok h
  have howned : wrapper ∈ component.wrappers := by rwa [hwrappers, mem_firstSeen]
  obtain ⟨model, hmodel, -⟩ := Component.exists_model howned
  exact ⟨model, hmodel⟩

/-- Accessors are apart when the spelling tells all models that are used apart. -/
theorem Described.accessorsAreApart_iff
    (hcomponent : componentOf described.path described.wrappers = .ok component)
    {spelling : String → String} {accessors : List (Option String)}
    (h : List.Forall₂ (IsSpelled spelling) described.consumer.markedFields accessors) :
    described.AccessorsAreApart accessors ↔
      ∀ model other, described.Uses model → described.Uses other →
        spelling model = spelling other → model = other := by
  obtain ⟨hlength, hspelled⟩ := List.forall₂_iff_zip.mp h
  constructor
  · intro hapart model other hmodel hother hsame
    obtain ⟨hlisted, field, hfield, htype⟩ := hmodel
    obtain ⟨hlisted', field', hfield', htype'⟩ := hother
    obtain ⟨accessor, hzip, hcalled⟩ := exists_mem_zip_of_forall₂ h hfield
    obtain ⟨accessor', hzip', hcalled'⟩ := exists_mem_zip_of_forall₂ h hfield'
    by_contra hne
    have htypes : simpleName field.type ≠ simpleName field'.type := by
      rwa [htype, htype', Ne, String.append_right_inj]
    obtain ⟨first, second, hfirst, hsecond, hapart⟩ :=
      hapart _ hzip _ hzip' (htype ▸ hlisted) (htype' ▸ hlisted') htypes
    cases (hcalled model htype).symm.trans hfirst
    cases (hcalled' other htype').symm.trans hsecond
    exact hapart hsame
  · intro hspelling one hone other hother hlisted hlisted' hne
    obtain ⟨model, hmodel⟩ := exists_model hcomponent hlisted
    obtain ⟨model', hmodel'⟩ := exists_model hcomponent hlisted'
    refine ⟨_, _, hspelled hone model hmodel, hspelled hother model' hmodel', ?_⟩
    intro hsame
    have huses : described.Uses model :=
      ⟨hmodel ▸ hlisted, one.1, (List.of_mem_zip hone).1, hmodel⟩
    have huses' : described.Uses model' :=
      ⟨hmodel' ▸ hlisted', other.1, (List.of_mem_zip hother).1, hmodel'⟩
    rw [hmodel, hmodel', hspelling model model' huses huses' hsame] at hne
    exact hne rfl

variable {injector : Injector} {statements : List Statement}

/-- The accessors that assignments call are spelled as their models. -/
theorem isSpelled_of_wires (h : component.Wires described.consumer injector) :
    List.Forall₂ (IsSpelled id) described.consumer.markedFields
      (injector.assignments.map (·.source.accessor)) := by
  rw [List.forall₂_map_right_iff]
  apply h.assignments.imp
  intro field assignment hfills model hmodel
  exact hfills.accessor_eq_some_iff.mpr hmodel

/-- The accessors that statements call are spelled as their models in snake case. -/
theorem isSpelled_snakeCase (h : component.Wires described.consumer injector)
    (hstatements : List.Forall₂ (fun assignment statement => Statement.Writes statement assignment)
      injector.assignments statements) :
    List.Forall₂ (IsSpelled snakeCase) described.consumer.markedFields
      (statements.map (·.accessor)) := by
  rw [List.forall₂_map_right_iff]
  apply (forall₂_comp.mpr ⟨_, h.assignments, hstatements⟩).imp
  intro field statement hwritten model hmodel
  obtain ⟨assignment, hfills, hwrites⟩ := hwritten
  rw [hwrites.accessor, hfills.accessor_eq_some_iff.mpr hmodel]
  rfl

/-- The statements fill the marked fields, in their order. -/
theorem fields_eq_of_writes (h : component.Wires described.consumer injector)
    (hstatements : List.Forall₂ (fun assignment statement => Statement.Writes statement assignment)
      injector.assignments statements) :
    statements.map (·.field) = described.consumer.markedFields.map (·.name) := by
  rw [← forall₂_eq_map_iff, List.forall₂_map_right_iff]
  apply (forall₂_comp.mpr ⟨_, h.assignments, hstatements⟩).imp
  intro field statement hwritten
  obtain ⟨assignment, hfills, hwrites⟩ := hwritten
  exact hwrites.field.trans hfills.name

/-- What a derived injector calls for fields of different wrappers has different names exactly when
no two models that are used have the same words. This is so when these models are in camel case.
What a generated injector of the same class calls has different names in any case. -/
theorem accessors_apart_iff (h : expand item = .ok expansion) :
    ∃ described : Described, described.item = item ∧
      expansion.statements.map (·.field) = described.consumer.markedFields.map (·.name) ∧
      (described.AccessorsAreApart (expansion.statements.map (·.accessor)) ↔
        described.WordsAreApart) ∧
      ((∀ model, described.Uses model → IsCamelCase model) → described.WordsAreApart) ∧
      ∀ (component : Component) (injector : Injector),
        component.Wires described.consumer injector →
          described.AccessorsAreApart (injector.assignments.map (·.source.accessor)) := by
  obtain ⟨described, rfl⟩ := exists_described h
  obtain ⟨component, injector, statements, hcomponent, hwires, -, hstatements, rfl⟩ :=
    expand_eq_ok.mp h
  refine ⟨described, rfl, fields_eq_of_writes hwires hstatements, ?_, ?_, ?_⟩
  · rw [Described.accessorsAreApart_iff hcomponent (isSpelled_snakeCase hwires hstatements)]
    simp only [snakeCase_eq_iff]
    rfl
  · intro hcamel model other hmodel hother hsame
    exact hsame.eq (hcamel model hmodel) (hcamel other hother)
  · intro other generated hgenerated
    rw [Described.accessorsAreApart_iff hcomponent (isSpelled_of_wires hgenerated)]
    exact fun model other _ _ hsame => hsame

/-! ### Capitals in a row -/

/-- A structure with fields of two wrappers whose words differ in case only. -/
def capitalsSource : String :=
  "#[injector(component = \"C\", wrappers(Preference_URLCache, Preference_UrlCache))] struct K " ++
    "\x7b #[inject_preference] a: Preference_URLCache, " ++
    "#[inject_preference] b: Preference_UrlCache \x7d"

/-- A marked field of the structure. -/
def capitalsField (name type : String) : NamedField where
  attributes := [⟨.ofNames false ["inject_preference"], .bare⟩]
  name
  type := .path (.ofNames false [type])

/-- The definition that is read from the source. -/
def capitalsItem : Item where
  attributes := [⟨.ofNames false ["injector"], .list
    [.name "component", .mark '=' false, .literal "\"C\"", .mark ',' false,
      .name "wrappers", .group .round
        [.name "Preference_URLCache", .mark ',' false, .name "Preference_UrlCache"]]⟩]
  visibility := []
  name := "K"
  parameters := []
  conditions := []
  shape := .named [capitalsField "a" "Preference_URLCache", capitalsField "b" "Preference_UrlCache"]

/-- The injector that is derived: both fields are filled by the same call. -/
def capitalsExpansion : Expansion where
  visibility := []
  name := "K_Injector"
  target := "K"
  parameters := []
  conditions := []
  singleton := .ofNames false ["PreferenceComponent_C"]
  statements := [⟨"a", some "url_cache"⟩, ⟨"b", some "url_cache"⟩]

/-- The structure with its component. -/
def capitalsStructure : Described where
  item := capitalsItem
  fields := [capitalsField "a" "Preference_URLCache", capitalsField "b" "Preference_UrlCache"]
  path := .ofNames false ["C"]
  wrappers := ["Preference_URLCache", "Preference_UrlCache"]
  shape := rfl
  arguments := by decide +kernel

/-- An injector is derived for the structure, and the cases of the theorem decide whether its
accessors are apart. -/
theorem accessors_apart_iff_capitals :
    Item.ofText? capitalsSource = some capitalsItem ∧
    expand capitalsItem = .ok capitalsExpansion ∧
      ∃ described : Described, described.item = capitalsItem ∧
        capitalsExpansion.statements.map (·.field) =
          described.consumer.markedFields.map (·.name) ∧
        (described.AccessorsAreApart (capitalsExpansion.statements.map (·.accessor)) ↔
          described.WordsAreApart) ∧
        ((∀ model, described.Uses model → IsCamelCase model) → described.WordsAreApart) ∧
        ∀ (component : Component) (injector : Injector),
          component.Wires described.consumer injector →
            described.AccessorsAreApart (injector.assignments.map (·.source.accessor)) :=
  ⟨by decide +kernel, by decide +kernel, accessors_apart_iff (by decide +kernel)⟩

/-- Not all derived injectors call different accessors for fields of different wrappers: that of the
structure fills both fields by the same call. -/
theorem wrappers_share_accessor :
    ¬ ∀ item expansion, expand item = .ok expansion →
      ∀ described : Described, described.item = item →
        described.AccessorsAreApart (expansion.statements.map (·.accessor)) := by
  intro h
  have hexpand : expand capitalsItem = .ok capitalsExpansion := by decide +kernel
  obtain ⟨first, second, hfirst, hsecond, hne⟩ := h _ _ hexpand capitalsStructure rfl
    (⟨"a", "Preference_URLCache", true⟩, some "url_cache") (by decide +kernel)
    (⟨"b", "Preference_UrlCache", true⟩, some "url_cache") (by decide +kernel)
    (by decide +kernel) (by decide +kernel) (by decide +kernel)
  cases hfirst
  cases hsecond
  exact hne rfl

end PreferenceInjector.Derive
