import PreferenceInjector.Derive.Expansion
import PreferenceInjector.Proofs.Generation.Wiring

/-!
# When an injector is derived

A structure whose attribute describes a component has a derived injector exactly when the component
can be built, the structure as a class can be wired to it, and every name that the injector writes
is an identifier. The statements of the injector are then the assignments of the wired one, with
their accessors in snake case.
-/

namespace PreferenceInjector.Derive

/-- A structure with named fields and with an attribute that describes a component. -/
structure Described where
  /-- The definition of the structure. -/
  item : Item
  /-- Its fields. -/
  fields : List NamedField
  /-- The path of the component. -/
  path : Path
  /-- The names of the wrappers, as the attribute lists them. -/
  wrappers : List String
  /-- The definition has these fields. -/
  shape : item.shape = .named fields
  /-- The attribute says so. -/
  arguments : argumentsOf item.attributes = .ok (path, wrappers)

/-- The class that the structure is. -/
def Described.consumer (described : Described) : Consumer :=
  consumerOf described.item.name described.fields

/-- The statement writes the assignment, with its accessor in snake case. -/
structure Statement.Writes (statement : Statement) (assignment : Assignment) : Prop where
  field : statement.field = assignment.field
  accessor : statement.accessor = assignment.source.accessor.map snakeCase
  legal : ∀ accessor ∈ statement.accessor, isIdentifier accessor.toList = true

/-- Every name that an injector of the class for the component writes is an identifier: that of
the singleton, and the accessors of the wrappers in snake case. -/
structure NamesAreWritable (component : Component) (consumer : Consumer) : Prop where
  singleton : isIdentifier component.singletonName.toList = true
  accessors : ∀ field ∈ consumer.fields, field.marked = true → ∀ model,
    simpleName field.type = "Preference_" ++ model →
      isIdentifier (snakeCase model).toList = true

/-! ### Steps -/

/-- A name is generated as it is when it is an identifier. -/
theorem generatedName_eq_ok {name found : String} :
    generatedName name = .ok found ↔ found = name ∧ isIdentifier name.toList = true := by
  rw [generatedName]
  split
  · next h => simp [h, pure, Except.pure, eq_comm]
  · next h =>
    split
    · simp [h, throw, throwThe, MonadExceptOf.throw]
    · simp [h, throw, throwThe, MonadExceptOf.throw]

/-- The fields of a definition are those of the structure that it is. -/
theorem namedFields_eq_ok {item : Item} {fields : List NamedField} :
    item.namedFields = .ok fields ↔ item.shape = .named fields := by
  rw [Item.namedFields]
  cases item.shape with
  | named found => simp [pure, Except.pure]
  | unnamed => simp [throw, throwThe, MonadExceptOf.throw]
  | variant => simp [throw, throwThe, MonadExceptOf.throw]

/-- A statement is the one that writes the assignment. -/
theorem Statement.ofAssignment_eq_ok {assignment : Assignment} {statement : Statement} :
    Statement.ofAssignment assignment = .ok statement ↔ statement.Writes assignment := by
  obtain ⟨field, accessor⟩ := statement
  rw [Statement.ofAssignment]
  cases hcase : assignment.source.accessor with
  | none =>
    constructor
    · intro h
      cases h
      exact ⟨rfl, by rw [hcase]; rfl, by simp⟩
    · intro h
      obtain ⟨rfl, haccessor, -⟩ := h
      change accessor = _ at haccessor
      rw [haccessor, hcase]
      rfl
  | some model =>
    simp only [except_bind_eq_ok, generatedName_eq_ok]
    constructor
    · intro h
      obtain ⟨name, ⟨rfl, hlegal⟩, hstatement⟩ := h
      cases hstatement
      exact ⟨rfl, by rw [hcase]; rfl, by simpa using hlegal⟩
    · intro h
      obtain ⟨rfl, haccessor, hlegal⟩ := h
      change accessor = _ at haccessor
      rw [hcase, Option.map_some] at haccessor
      subst haccessor
      exact ⟨_, ⟨rfl, hlegal _ rfl⟩, rfl⟩

/-! ### Expansions -/

variable {described : Described} {expansion : Expansion}

/-- A derived injector is the one that is wired to the component, written with identifiers. -/
theorem expand_eq_ok :
    expand described.item = .ok expansion ↔
      ∃ component injector statements,
        componentOf described.path described.wrappers = .ok component ∧
        component.Wires described.consumer injector ∧
        isIdentifier component.singletonName.toList = true ∧
        List.Forall₂ (fun assignment statement => Statement.Writes statement assignment)
          injector.assignments statements ∧
        expansion = {
          visibility := described.item.visibility
          name := injector.name
          target := described.item.name
          parameters := described.item.parameters
          conditions := described.item.conditions
          singleton := described.path.renamed fun _ => component.singletonName
          statements } := by
  have hfields := namedFields_eq_ok.mpr described.shape
  simp only [expand, except_bind_eq_ok, hfields, described.arguments, mapError_eq_ok,
    generatedName_eq_ok, mapM_eq_ok, Statement.ofAssignment_eq_ok, Component.wires_iff_bindAll]
  constructor
  · intro h
    obtain ⟨fields, hfields, parts, hparts, component, hcomponent, bindings, hbindings,
      singleton, ⟨rfl, hsingleton⟩, statements, hstatements, hexpansion⟩ := h
    cases hfields
    cases hparts
    cases hexpansion
    exact ⟨component, _, statements, hcomponent, ⟨bindings, hbindings, rfl⟩, hsingleton,
      hstatements, rfl⟩
  · intro h
    obtain ⟨component, injector, statements, hcomponent, ⟨bindings, hbindings, rfl⟩, hsingleton,
      hstatements, rfl⟩ := h
    exact ⟨_, rfl, _, rfl, component, hcomponent, bindings, hbindings, _, ⟨rfl, hsingleton⟩,
      statements, hstatements, rfl⟩

/-- Renaming a path changes the last of its names. -/
theorem Path.names_renamed {path : Path} {parts : List String} {last : String}
    (h : path.names = parts ++ [last]) (name : String) :
    (path.renamed fun _ => name).names = parts ++ [name] := by
  obtain ⟨before, after, hsegments, rfl, hafter⟩ := List.map_eq_append_iff.mp h
  obtain ⟨segment, rfl, -⟩ := List.map_eq_singleton_iff.mp hafter
  rw [Path.names, Path.renamed, hsegments, List.getLast?_concat]
  simp

/-- An injector is derived when all marked fields resolve and all names are identifiers. -/
theorem exists_expand :
    (∃ expansion, expand described.item = .ok expansion) ↔
      ∃ component, componentOf described.path described.wrappers = .ok component ∧
        (∀ field ∈ described.consumer.fields, field.marked = true → component.Resolves field) ∧
        NamesAreWritable component described.consumer := by
  simp only [← Component.exists_wires]
  constructor
  · intro h
    obtain ⟨expansion, hexpansion⟩ := h
    obtain ⟨component, injector, statements, hcomponent, hwires, hsingleton, hstatements, -⟩ :=
      expand_eq_ok.mp hexpansion
    refine ⟨component, hcomponent, ⟨injector, hwires⟩, hsingleton, ?_⟩
    intro field hfield hmarked model hmodel
    -- The assignment that fills the field has the model as its accessor.
    obtain ⟨assignment, hassignment, hfills⟩ := exists_of_forall₂_mem hwires.assignments.flip
      (List.mem_filter.mpr ⟨hfield, hmarked⟩)
    obtain ⟨statement, -, hwrites⟩ := exists_of_forall₂_mem hstatements.flip hassignment
    have haccessor := hfills.accessor_eq_some_iff.mpr hmodel
    exact hwrites.legal _ (by rw [hwrites.accessor, haccessor]; rfl)
  · intro h
    obtain ⟨component, hcomponent, ⟨injector, hwires⟩, hsingleton, haccessors⟩ := h
    have hwritten : ∀ assignment ∈ injector.assignments,
        ∃ statement : Statement, statement.Writes assignment := by
      intro assignment hassignment
      obtain ⟨field, hfield, hfills⟩ := exists_of_forall₂_mem hwires.assignments hassignment
      obtain ⟨hmem, hmarked⟩ := List.mem_filter.mp hfield
      refine ⟨⟨assignment.field, assignment.source.accessor.map snakeCase⟩, rfl, rfl, ?_⟩
      intro accessor haccessor
      obtain ⟨model, hmodel, rfl⟩ := Option.map_eq_some_iff.mp haccessor
      exact haccessors field hmem hmarked model (hfills.accessor_eq_some_iff.mp hmodel)
    obtain ⟨statements, hstatements⟩ := exists_forall₂_iff.mpr hwritten
    exact ⟨_, expand_eq_ok.mpr
      ⟨component, injector, statements, hcomponent, hwires, hsingleton, hstatements, rfl⟩⟩

end PreferenceInjector.Derive
