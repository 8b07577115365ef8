import PreferenceInjector.Proofs.Generation.Wiring

/-!
# Filling a class field by field

The marked fields of a class are bound in order, and the first one whose type names neither a
wrapper of the component nor its singleton ends the attempt, whatever comes after it. When there is
none, each marked field is assigned once, at its own place. Unmarked fields have no part in either,
so two classes that differ in unmarked fields only are filled alike.
-/

namespace PreferenceInjector

variable {component : Component} {consumer : Consumer} {field : Field}

/-- All marked fields of the class resolve. -/
def Component.ResolvesAll (component : Component) (consumer : Consumer) : Prop :=
  ∀ field ∈ consumer.fields, field.marked = true → component.Resolves field

/-- The field is the first marked one of the class that does not resolve. -/
def Component.StopsAt (component : Component) (consumer : Consumer) (field : Field) : Prop :=
  ∃ before later, consumer.fields = before ++ field :: later ∧
    (∀ earlier ∈ before, earlier.marked = true → component.Resolves earlier) ∧
    field.marked = true ∧ ¬ component.Resolves field

/-- The assignment is the one for the field: it reads from the component's own singleton, through
an accessor exactly when the field's type is an owned wrapper, and directly exactly when it is the
singleton. -/
structure Component.Assigns (component : Component) (field : Field) (assignment : Assignment) :
    Prop where
  name : assignment.field = field.name
  singleton : assignment.source.singleton =
    ⟨component.package, "PreferenceComponent_" ++ component.className⟩
  accessor : ∀ model, assignment.source.accessor = some model ↔
    simpleName field.type = "Preference_" ++ model ∧ simpleName field.type ∈ component.wrappers
  direct : assignment.source.accessor = none ↔
    simpleName field.type = "PreferenceComponent_" ++ component.className

/-- The second list comes from the first one by adding, removing and changing unmarked fields. -/
inductive DifferInUnmarked : List Field → List Field → Prop
  | nil : DifferInUnmarked [] []
  | kept {fields others : List Field} (field : Field) (h : DifferInUnmarked fields others) :
      DifferInUnmarked (field :: fields) (field :: others)
  | added {fields others : List Field} (field : Field) (unmarked : field.marked = false)
      (h : DifferInUnmarked fields others) : DifferInUnmarked fields (field :: others)
  | removed {fields others : List Field} (field : Field) (unmarked : field.marked = false)
      (h : DifferInUnmarked fields others) : DifferInUnmarked (field :: fields) others

/-- The marked fields are the same. -/
theorem DifferInUnmarked.filter_marked {fields others : List Field}
    (h : DifferInUnmarked fields others) :
    fields.filter (·.marked) = others.filter (·.marked) := by
  induction h with
  | nil => rfl
  | kept field _ ih => rw [List.filter_cons, List.filter_cons, ih]
  | added field unmarked _ ih => rw [List.filter_cons_of_neg (by simp [unmarked]), ih]
  | removed field unmarked _ ih => rw [List.filter_cons_of_neg (by simp [unmarked]), ih]

/-- A field that is filled is assigned. -/
theorem Component.Fills.assigns {assignment : Assignment} (h : component.Fills field assignment) :
    component.Assigns field assignment := by
  have haccessor := h.accessor
  refine ⟨h.name, h.singleton, ?_, ?_⟩
  · intro model
    rw [h.accessor_eq_some_iff]
    constructor
    · intro hname
      rw [h.accessor_eq_some_iff.mpr hname] at haccessor
      exact ⟨hname, haccessor.1⟩
    · exact And.left
  · constructor
    · intro hnone
      rwa [hnone] at haccessor
    · intro hname
      rw [Option.eq_none_iff_forall_ne_some]
      intro model hmodel
      exact singletonName_ne_wrapper _ _ (hname.symm.trans (h.accessor_eq_some_iff.mp hmodel))

/-! ### One field -/

/-- A field is bound exactly when it resolves. -/
theorem Component.exists_bindField :
    (∃ binding, (component.bindField consumer field).outcome = .ok binding) ↔
      component.Resolves field := by
  rw [← Component.exists_fills]
  simp only [@Component.fills_iff _ consumer]
  constructor
  · intro h
    obtain ⟨binding, hbinding⟩ := h
    exact ⟨_, binding, hbinding, rfl⟩
  · intro h
    obtain ⟨-, binding, hbinding, -⟩ := h
    exact ⟨binding, hbinding⟩

/-- Binding fields that resolve reports nothing. -/
theorem Component.flatMap_events_bindField {fields : List Field}
    (h : ∀ field ∈ fields, component.Resolves field) :
    (fields.flatMap fun field => (component.bindField consumer field).events) = [] := by
  rw [List.flatMap_eq_nil_iff]
  intro field hfield
  obtain ⟨binding, hbinding⟩ : ∃ binding, (component.bindField consumer field).outcome =
      .ok binding := Component.exists_bindField.mpr (h field hfield)
  obtain ⟨hresolution, -⟩ := Component.bindField_eq_ok.mp hbinding
  rw [Component.bindField, hresolution]
  rfl

/-- A field that does not resolve is reported by the class, its name and its simple type name. -/
theorem Component.bindField_of_not_resolves (h : ¬ component.Resolves field) :
    component.bindField consumer field =
      Reported.unresolvable consumer.qualified field.name (simpleName field.type) := by
  rw [Component.bindField]
  cases hresolution : component.resolve? field.type with
  | none => rfl
  | some resolution =>
    have hbound : (component.bindField consumer field).outcome = .ok ⟨field, resolution⟩ :=
      Component.bindField_eq_ok.mpr ⟨hresolution, rfl⟩
    exact (h (Component.exists_bindField.mp ⟨_, hbound⟩)).elim

/-! ### All fields -/

/-- A class stops at some field when not all of its marked fields resolve. -/
theorem Component.exists_stopsAt (h : ¬ component.ResolvesAll consumer) :
    ∃ field, component.StopsAt consumer field := by
  obtain ⟨before, field, later, hsplit, hbefore, hfield⟩ := exists_first_of_not_forall h
  exact ⟨field, before, later, hsplit, hbefore, Classical.not_imp.mp hfield⟩

/-- A class all of whose marked fields resolve is bound, and the number of its bindings is
reported. -/
theorem Component.bindAll_of_resolvesAll (h : component.ResolvesAll consumer) :
    ∃ bindings, component.bindAll consumer = ⟨.ok bindings,
      [.resolved consumer.qualified component.qualified
        (consumer.fields.filter (·.marked)).length]⟩ := by
  have hmarked : ∀ field ∈ consumer.markedFields, component.Resolves field := by
    intro field hfield
    obtain ⟨hmem, hmarked⟩ := List.mem_filter.mp hfield
    exact h field hmem hmarked
  have hbound : ∀ field ∈ consumer.markedFields,
      ∃ binding, (component.bindField consumer field).outcome = .ok binding :=
    fun field hfield => Component.exists_bindField.mpr (hmarked field hfield)
  obtain ⟨bindings, hbindings⟩ := exists_forall₂_iff.mpr hbound
  have hlength : (consumer.fields.filter (·.marked)).length = bindings.length :=
    hbindings.length_eq
  refine ⟨bindings, ?_⟩
  rw [Component.bindAll, Reported.forEach_of_ok hbindings,
    Component.flatMap_events_bindField hmarked, hlength]
  rfl

/-- A class that stops at a field fails with that field, whatever fields follow it. -/
theorem Component.bindAll_of_stopsAt (h : component.StopsAt consumer field) :
    component.bindAll consumer =
      Reported.unresolvable consumer.qualified field.name (simpleName field.type) := by
  obtain ⟨before, later, hsplit, hbefore, hmarked, hfield⟩ := h
  have hfields : consumer.markedFields =
      before.filter (·.marked) ++ field :: later.filter (·.marked) := by
    rw [Consumer.markedFields, hsplit, List.filter_append, List.filter_cons_of_pos hmarked]
  have hresolves : ∀ earlier ∈ before.filter (·.marked), component.Resolves earlier := by
    intro earlier hearlier
    obtain ⟨hmem, hmarked⟩ := List.mem_filter.mp hearlier
    exact hbefore earlier hmem hmarked
  have hfailed : component.bindField consumer field =
      Reported.unresolvable consumer.qualified field.name (simpleName field.type) :=
    Component.bindField_of_not_resolves hfield
  rw [Component.bindAll, hfields, Reported.forEach_of_error
    (fun earlier hearlier => Component.exists_bindField.mpr (hresolves earlier hearlier))
    (by rw [hfailed]; rfl), Component.flatMap_events_bindField hresolves, hfailed]
  rfl

/-- Binding a class fails exactly when a marked field does not resolve, and then with the first such
field. Otherwise the injector of the bindings assigns exactly the marked fields, each at its place.
Unmarked fields have no influence on either. -/
theorem Component.bindAll_spec (component : Component) (consumer : Consumer) :
    ((∃ failure, (component.bindAll consumer).outcome = .error failure) ↔
      ∃ field ∈ consumer.fields, field.marked = true ∧ ¬ component.Resolves field) ∧
    (∀ before field later, consumer.fields = before ++ field :: later →
      (∀ earlier ∈ before, earlier.marked = true → component.Resolves earlier) →
        field.marked = true → ¬ component.Resolves field →
          (component.bindAll consumer).outcome =
            .error (.unresolvable consumer.qualified field.name (simpleName field.type))) ∧
    (∀ bindings, (component.bindAll consumer).outcome = .ok bindings →
      List.Forall₂ component.Assigns (consumer.fields.filter (·.marked))
        (Injector.ofBindings consumer component bindings).assignments) ∧
    ∀ others, DifferInUnmarked consumer.fields others →
      component.bindAll { consumer with fields := others } = component.bindAll consumer ∧
        ∀ bindings, Injector.ofBindings { consumer with fields := others } component bindings =
          Injector.ofBindings consumer component bindings := by
  refine ⟨?_, ?_, ?_, ?_⟩
  · by_cases hall : component.ResolvesAll consumer
    · obtain ⟨bindings, hbindings⟩ := Component.bindAll_of_resolvesAll hall
      simpa [hbindings, Component.ResolvesAll] using hall
    · obtain ⟨field, hstops⟩ := Component.exists_stopsAt hall
      rw [Component.bindAll_of_stopsAt hstops]
      simpa [Reported.unresolvable, Component.ResolvesAll] using hall
  · intro before field later hsplit hbefore hmarked hfield
    rw [Component.bindAll_of_stopsAt ⟨before, later, hsplit, hbefore, hmarked, hfield⟩]
    rfl
  · intro bindings hbindings
    have hwires := Component.wires_iff_bindAll.mpr ⟨bindings, hbindings, rfl⟩
    exact hwires.assignments.imp fun _ _ => Component.Fills.assigns
  · intro others hothers
    refine ⟨?_, fun _ => rfl⟩
    rw [Component.bindAll, Component.bindAll, Consumer.markedFields, Consumer.markedFields,
      hothers.filter_marked]
    rfl

end PreferenceInjector
