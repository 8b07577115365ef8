import PreferenceInjector.Proofs.RelatedLists
import PreferenceInjector.Proofs.Reported
import PreferenceInjector.Registry

/-!
# Wiring of injectors

What the injector of a class for a component consists of. Each marked field is filled from the
component's singleton, through the accessor of the wrapper that its type names or with the
singleton itself. No wrapper is named like a singleton, so the two never compete for a type.
-/

namespace PreferenceInjector

variable {component : Component} {consumer : Consumer} {field : Field}

/-- The assignment fills the field from the component: with the wrapper whose name is the simple
name of the field's type, or with the singleton if the type is its own. -/
structure Component.Fills (component : Component) (field : Field) (assignment : Assignment) :
    Prop where
  name : assignment.field = field.name
  singleton : assignment.source.singleton =
    ⟨component.package, "PreferenceComponent_" ++ component.className⟩
  accessor : match assignment.source.accessor with
    | some model => simpleName field.type ∈ component.wrappers ∧
        simpleName field.type = "Preference_" ++ model
    | none => simpleName field.type = "PreferenceComponent_" ++ component.className

/-- The injector takes an object of the class and fills its marked fields, in order, from the
singleton of the component. -/
structure Component.Wires (component : Component) (consumer : Consumer) (injector : Injector) :
    Prop where
  inPackage : injector.package = consumer.package
  name : injector.name = consumer.name ++ "_Injector"
  parameter : injector.parameter = ⟨consumer.package, consumer.name⟩
  singleton : injector.component =
    ⟨component.package, "PreferenceComponent_" ++ component.className⟩
  assignments : List.Forall₂ component.Fills (consumer.fields.filter (·.marked))
    injector.assignments

/-- The simple name of the field's type is that of an owned wrapper or of the singleton. -/
def Component.Resolves (component : Component) (field : Field) : Prop :=
  simpleName field.type ∈ component.wrappers ∨
    simpleName field.type = "PreferenceComponent_" ++ component.className

/-! ### Accessors -/

/-- What is left of a text after its stem. -/
theorem dropStem?_eq_some_iff {stem text rest : String} :
    dropStem? stem text = some rest ↔ text = stem ++ rest := by
  rw [dropStem?]
  constructor
  · intro h
    split at h
    · next hprefix =>
      obtain ⟨tail, htail⟩ := List.isPrefixOf_iff_prefix.mp hprefix
      rw [← htail, List.drop_left] at h
      cases h
      rw [← String.toList_inj, String.toList_append, String.toList_ofList, htail]
    · cases h
  · intro heq
    subst heq
    have hprefix : stem.toList.isPrefixOf (stem ++ rest).toList = true := by
      rw [String.toList_append]
      exact List.isPrefixOf_iff_prefix.mpr (List.prefix_append _ _)
    rw [if_pos hprefix, String.toList_append, List.drop_left, String.ofList_toList]

/-- The accessor of a wrapper is its name without the stem. -/
theorem wrapperAccessor_eq_some_iff {name model : String} :
    wrapperAccessor name = some model ↔ name = "Preference_" ++ model ∧ model ≠ "" := by
  rw [wrapperAccessor, Option.filter_eq_some_iff, dropStem?_eq_some_iff]
  simp [wrapperStem]

/-- An owned wrapper is named after a model. -/
theorem Component.exists_model {wrapper : String} (h : wrapper ∈ component.wrappers) :
    ∃ model, wrapper = "Preference_" ++ model ∧ model ≠ "" := by
  obtain ⟨model, hmodel⟩ := Option.isSome_iff_exists.mp (component.wrapperNames _ h)
  exact ⟨model, wrapperAccessor_eq_some_iff.mp hmodel⟩

/-- No singleton has the name of a wrapper. -/
theorem singletonName_ne_wrapper (className model : String) :
    "PreferenceComponent_" ++ className ≠ "Preference_" ++ model := by
  intro h
  have hchar := congrArg (fun text : String => text.toList[10]?) h
  simp at hchar

/-- The accessor of an assignment is that of the wrapper whose name the field's type has. -/
theorem Component.Fills.accessor_eq_some_iff {assignment : Assignment}
    (h : component.Fills field assignment) {model : String} :
    assignment.source.accessor = some model ↔ simpleName field.type = "Preference_" ++ model := by
  have haccessor := h.accessor
  cases hcase : assignment.source.accessor with
  | some found =>
    rw [hcase] at haccessor
    rw [haccessor.2, String.append_right_inj, Option.some_inj]
  | none =>
    rw [hcase] at haccessor
    rw [haccessor]
    simp [singletonName_ne_wrapper]

/-! ### Bindings -/

/-- The assignment that a binding gives rise to. -/
def Component.assignment (component : Component) (binding : Binding) : Assignment :=
  ⟨binding.field.name, ⟨component.singleton, binding.resolution.accessor?⟩⟩

/-- A type denotes an owned wrapper, or the component, by its simple name. -/
theorem Component.resolve?_eq_some_iff {type : String} {resolution : Resolution} :
    component.resolve? type = some resolution ↔ match resolution with
      | .wrapper model => simpleName type ∈ component.wrappers ∧
          simpleName type = "Preference_" ++ model
      | .component => simpleName type = "PreferenceComponent_" ++ component.className := by
  have howns : component.owns (simpleName type) = true ↔ simpleName type ∈ component.wrappers := by
    simp [Component.owns]
  by_cases howned : simpleName type ∈ component.wrappers
  · obtain ⟨accessor, hstem, hne⟩ := Component.exists_model howned
    rw [Component.resolve?, if_pos (howns.mpr howned),
      wrapperAccessor_eq_some_iff.mpr ⟨hstem, hne⟩, Option.map_some, Option.some_inj]
    cases resolution with
    | wrapper model =>
      rw [Resolution.wrapper.injEq]
      constructor
      · intro heq
        subst heq
        exact ⟨howned, hstem⟩
      · intro h
        obtain ⟨-, hname⟩ := h
        exact (String.append_right_inj _).mp (hstem.symm.trans hname)
    | component =>
      constructor
      · intro h
        cases h
      · intro hname
        exact (singletonName_ne_wrapper _ _ (hname.symm.trans hstem)).elim
  · rw [Component.resolve?, if_neg (howns.not.mpr howned)]
    cases resolution with
    | wrapper model => simp [howned]
    | component =>
      have hsingleton : component.singletonName =
          "PreferenceComponent_" ++ component.className := rfl
      simp [hsingleton]

/-- A field is bound when its type denotes something. -/
theorem Component.bindField_eq_ok {binding : Binding} :
    (component.bindField consumer field).outcome = .ok binding ↔
      component.resolve? field.type = some binding.resolution ∧ binding.field = field := by
  obtain ⟨bound, resolution⟩ := binding
  rw [Component.bindField]
  cases component.resolve? field.type with
  | some found => simp [and_comm, eq_comm]
  | none => simp [Reported.unresolvable]

/-- A field is bound in the way in which an assignment fills it. -/
theorem Component.fills_iff {assignment : Assignment} :
    component.Fills field assignment ↔
      ∃ binding, (component.bindField consumer field).outcome = .ok binding ∧
        assignment = component.assignment binding := by
  simp only [Component.bindField_eq_ok, Component.resolve?_eq_some_iff]
  constructor
  · intro h
    obtain ⟨hname, hsingleton, haccessor⟩ := h
    obtain ⟨name, ⟨singleton, accessor⟩⟩ := assignment
    change name = field.name at hname
    change singleton = component.singleton at hsingleton
    subst hname hsingleton
    cases accessor with
    | some model => exact ⟨⟨field, .wrapper model⟩, ⟨haccessor, rfl⟩, rfl⟩
    | none => exact ⟨⟨field, .component⟩, ⟨haccessor, rfl⟩, rfl⟩
  · intro h
    obtain ⟨⟨field, resolution⟩, ⟨hresolution, rfl⟩, rfl⟩ := h
    cases resolution with
    | wrapper model => exact ⟨rfl, rfl, hresolution⟩
    | component => exact ⟨rfl, rfl, hresolution⟩

/-- Some assignment fills a field that resolves. -/
theorem Component.exists_fills :
    (∃ assignment, component.Fills field assignment) ↔ component.Resolves field := by
  constructor
  · intro h
    obtain ⟨⟨name, ⟨singleton, accessor⟩⟩, -, -, haccessor⟩ := h
    cases accessor with
    | some model => exact Or.inl haccessor.1
    | none => exact Or.inr haccessor
  · rintro (howned | hsingleton)
    · obtain ⟨model, hname, -⟩ := Component.exists_model howned
      exact ⟨⟨field.name, ⟨component.singleton, some model⟩⟩, rfl, rfl, howned, hname⟩
    · exact ⟨⟨field.name, ⟨component.singleton, none⟩⟩, rfl, rfl, hsingleton⟩

/-- The bindings of a class are those of its marked fields. -/
theorem Component.bindAll_eq_ok {bindings : List Binding} :
    (component.bindAll consumer).outcome = .ok bindings ↔
      List.Forall₂ (fun field binding => (component.bindField consumer field).outcome = .ok binding)
        (consumer.fields.filter (·.marked)) bindings := by
  simp only [Component.bindAll, Reported.outcome_bind_eq_ok, Reported.outcome_forEach_eq_ok,
    Consumer.markedFields]
  constructor
  · intro h
    obtain ⟨bound, hbound, ⟨⟩, -, hpure⟩ := h
    cases hpure
    exact hbound
  · intro h
    exact ⟨bindings, h, (), rfl, rfl⟩

/-- The injector that is wired to a component consists of the bindings of the class. -/
theorem Component.wires_iff_bindAll {injector : Injector} :
    component.Wires consumer injector ↔
      ∃ bindings, (component.bindAll consumer).outcome = .ok bindings ∧
        Injector.ofBindings consumer component bindings = injector := by
  simp only [Component.bindAll_eq_ok]
  constructor
  · intro h
    obtain ⟨hpackage, hname, hparameter, hsingleton, hassignments⟩ := h
    obtain ⟨bindings, hbindings, hmap⟩ := forall₂_comp.mp
      (hassignments.imp fun _ _ => Component.fills_iff.mp)
    rw [forall₂_eq_map_iff] at hmap
    refine ⟨bindings, hbindings, ?_⟩
    obtain ⟨name, package, parameter, singleton, assignments⟩ := injector
    change package = _ at hpackage
    change name = _ at hname
    change parameter = _ at hparameter
    change singleton = _ at hsingleton
    change assignments = _ at hmap
    subst hpackage hname hparameter hsingleton hmap
    rfl
  · intro h
    obtain ⟨bindings, hbindings, rfl⟩ := h
    refine ⟨rfl, rfl, rfl, rfl, ?_⟩
    exact (forall₂_comp.mpr ⟨bindings, hbindings, forall₂_eq_map_iff.mpr rfl⟩).imp
      fun _ _ => Component.fills_iff.mpr

/-- The injector of a class is the one that is wired to its component. -/
theorem Registry.injectorFor_eq_ok {injector : Injector} :
    (Registry.injectorFor component consumer).outcome = .ok injector ↔
      component.Wires consumer injector := by
  rw [Component.wires_iff_bindAll, Registry.injectorFor, Reported.outcome_bind_eq_ok]
  simp [Reported.outcome_bind_eq_ok]

/-- A class can be wired when its marked fields resolve. -/
theorem Component.exists_wires :
    (∃ injector, component.Wires consumer injector) ↔
      ∀ field ∈ consumer.fields, field.marked = true → component.Resolves field := by
  have hmarked : (∀ field ∈ consumer.fields, field.marked = true → component.Resolves field) ↔
      ∀ field ∈ consumer.fields.filter (·.marked), ∃ assignment,
        component.Fills field assignment := by
    simp only [List.mem_filter, and_imp, Component.exists_fills]
  rw [hmarked, ← exists_forall₂_iff]
  constructor
  · intro h
    obtain ⟨injector, hwires⟩ := h
    exact ⟨injector.assignments, hwires.assignments⟩
  · intro h
    obtain ⟨assignments, hassignments⟩ := h
    exact ⟨⟨_, _, _, _, assignments⟩, rfl, rfl, rfl, rfl, hassignments⟩

end PreferenceInjector
