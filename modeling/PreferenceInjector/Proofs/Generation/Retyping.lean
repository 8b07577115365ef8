import PreferenceInjector.Proofs.Generation.Pass

/-!
# Passes over retyped classes

Two lists of files with the same components and with classes that differ in the types of their
fields only. A pass reads nothing but the simple name of a type, and it can be read back from the
assignment that fills the field. So the two passes have the same outcome exactly when both fail or
the marked fields of all injected classes keep the simple names of their types.
-/

namespace PreferenceInjector

open Declaration (Entry File)

/-- Two fields that differ in their types only. -/
def Field.IsRetyped (field other : Field) : Prop :=
  field.name = other.name ∧ field.marked = other.marked

/-- A marked field and one with the same simple type name. -/
def Field.KeepsName (field other : Field) : Prop :=
  field.marked = true → simpleName field.type = simpleName other.type

/-- Two classes that differ in the types of their fields only. -/
structure Consumer.IsRetyped (consumer other : Consumer) : Prop where
  package : consumer.package = other.package
  name : consumer.name = other.name
  fields : List.Forall₂ Field.IsRetyped consumer.fields other.fields

/-- The marked fields of the class keep the simple names of their types. -/
def Consumer.KeepsNames (consumer other : Consumer) : Prop :=
  List.Forall₂ Field.KeepsName consumer.fields other.fields

/-- Files with the same components, and with classes that differ in the types of their fields. -/
structure AreRetyped (files others : List File) : Prop where
  entries : entriesOf files = entriesOf others
  consumers : List.Forall₂ Consumer.IsRetyped (consumersOf files) (consumersOf others)

/-- The marked fields of all injected classes keep the simple names of their types. -/
def KeepNames (files others : List File) : Prop :=
  List.Forall₂ (fun consumer other =>
    consumer.qualified ∈ (requestsOf files).map (·.target) → consumer.KeepsNames other)
    (consumersOf files) (consumersOf others)

/-! ### One class -/

section Class

variable {component : Component} {consumer other : Consumer} {injector : Injector}

/-- A retyped class has the same qualified name. -/
theorem Consumer.IsRetyped.qualified (h : consumer.IsRetyped other) :
    consumer.qualified = other.qualified := by
  rw [Consumer.qualified, Consumer.qualified, h.package, h.name]

/-- Retyping can be undone. -/
theorem Consumer.IsRetyped.symm (h : consumer.IsRetyped other) : other.IsRetyped consumer :=
  ⟨h.package.symm, h.name.symm, h.fields.flip.imp fun _ _ hfield => ⟨hfield.1.symm, hfield.2.symm⟩⟩

/-- Names that are kept are kept in the other direction. -/
theorem Consumer.KeepsNames.symm (hshape : consumer.IsRetyped other)
    (h : consumer.KeepsNames other) : other.KeepsNames consumer := by
  apply List.Forall₂.flip
  apply List.Forall₂.mp _ hshape.fields h
  intro field otherField hfield hkeeps hmarked
  exact (hkeeps (hfield.2.trans hmarked)).symm

/-- An assignment tells the simple name of the type of the field that it fills. -/
theorem Component.Fills.simpleName_eq {field otherField : Field} {assignment : Assignment}
    (h : component.Fills field assignment) (h' : component.Fills otherField assignment) :
    simpleName field.type = simpleName otherField.type := by
  have haccessor := h.accessor
  have haccessor' := h'.accessor
  cases hcase : assignment.source.accessor with
  | some model =>
    rw [hcase] at haccessor haccessor'
    exact haccessor.2.trans haccessor'.2.symm
  | none =>
    rw [hcase] at haccessor haccessor'
    exact haccessor.trans haccessor'.symm

/-- A field with the same name and the same simple type name is filled by the same assignment. -/
theorem Component.Fills.of_name_eq {field otherField : Field} {assignment : Assignment}
    (h : component.Fills field assignment) (hname : field.name = otherField.name)
    (htype : simpleName field.type = simpleName otherField.type) :
    component.Fills otherField assignment := by
  obtain ⟨hfield, hsingleton, haccessor⟩ := h
  rw [htype] at haccessor
  exact ⟨hfield.trans hname, hsingleton, haccessor⟩

/-- The assignments of a class fill the fields of a retyped one that keeps the names. -/
theorem fills_of_keepsNames {fields others : List Field} {assignments : List Assignment}
    (hshape : List.Forall₂ Field.IsRetyped fields others)
    (hnames : List.Forall₂ Field.KeepsName fields others)
    (h : List.Forall₂ component.Fills (fields.filter (·.marked)) assignments) :
    List.Forall₂ component.Fills (others.filter (·.marked)) assignments := by
  induction hshape generalizing assignments with
  | nil => exact h
  | @cons field otherField fields others hfield _ ih =>
    obtain ⟨hname, hmarked⟩ := hfield
    cases hnames with
    | cons hkeeps hnames =>
      cases hcase : field.marked with
      | false =>
        have hother : otherField.marked = false := hmarked.symm.trans hcase
        rw [List.filter_cons_of_neg (by simp [hcase])] at h
        rw [List.filter_cons_of_neg (by simp [hother])]
        exact ih hnames h
      | true =>
        have hother : otherField.marked = true := hmarked.symm.trans hcase
        rw [List.filter_cons_of_pos hcase] at h
        rw [List.filter_cons_of_pos hother]
        cases h with
        | cons hfills h => exact .cons (hfills.of_name_eq hname (hkeeps hcase)) (ih hnames h)

/-- Fields of retyped classes that are filled by the same assignments keep the names. -/
theorem keepsNames_of_fills {fields others : List Field} {assignments : List Assignment}
    (hshape : List.Forall₂ Field.IsRetyped fields others)
    (h : List.Forall₂ component.Fills (fields.filter (·.marked)) assignments)
    (h' : List.Forall₂ component.Fills (others.filter (·.marked)) assignments) :
    List.Forall₂ Field.KeepsName fields others := by
  induction hshape generalizing assignments with
  | nil => exact .nil
  | @cons field otherField fields others hfield _ ih =>
    obtain ⟨hname, hmarked⟩ := hfield
    cases hcase : field.marked with
    | false =>
      have hother : otherField.marked = false := hmarked.symm.trans hcase
      rw [List.filter_cons_of_neg (by simp [hcase])] at h
      rw [List.filter_cons_of_neg (by simp [hother])] at h'
      refine .cons ?_ (ih h h')
      intro htrue
      cases hcase.symm.trans htrue
    | true =>
      have hother : otherField.marked = true := hmarked.symm.trans hcase
      rw [List.filter_cons_of_pos hcase] at h
      rw [List.filter_cons_of_pos hother] at h'
      cases h with
      | cons hfills h =>
        cases h' with
        | cons hfills' h' => exact .cons (fun _ => hfills.simpleName_eq hfills') (ih h h')

/-- The injector of a class is that of a retyped one that keeps the names. -/
theorem Component.Wires.of_keepsNames (h : component.Wires consumer injector)
    (hshape : consumer.IsRetyped other) (hnames : consumer.KeepsNames other) :
    component.Wires other injector := by
  refine ⟨?_, ?_, ?_, h.singleton, fills_of_keepsNames hshape.fields hnames h.assignments⟩
  · rw [h.inPackage, hshape.package]
  · rw [h.name, hshape.name]
  · rw [h.parameter, hshape.package, hshape.name]

/-- Retyped classes with the same injector keep the names. -/
theorem Component.Wires.keepsNames (h : component.Wires consumer injector)
    (h' : component.Wires other injector) (hshape : consumer.IsRetyped other) :
    consumer.KeepsNames other :=
  keepsNames_of_fills hshape.fields h.assignments h'.assignments

end Class

/-! ### Passes -/

section Pass

variable {files others : List File} {plan : List Injector}

/-- Retyping can be undone. -/
theorem AreRetyped.symm (h : AreRetyped files others) : AreRetyped others files :=
  ⟨h.entries.symm, h.consumers.flip.imp fun _ _ => Consumer.IsRetyped.symm⟩

/-- Retyped files request the same classes. -/
theorem AreRetyped.requests (h : AreRetyped files others) :
    requestsOf files = requestsOf others := by
  rw [requestsOf, requestsOf, h.entries]

/-- Names that are kept are kept in the other direction. -/
theorem KeepNames.symm (h : AreRetyped files others) (hnames : KeepNames files others) :
    KeepNames others files := by
  rw [KeepNames, ← h.requests]
  apply List.Forall₂.flip
  apply List.Forall₂.mp _ h.consumers hnames
  intro consumer other hshape hkeeps hrequested
  rw [← hshape.qualified] at hrequested
  exact Consumer.KeepsNames.symm hshape (hkeeps hrequested)

/-- The names in retyped files are distinct when they were so before. -/
theorem AreRetyped.distinct (h : AreRetyped files others)
    (hdistinct : (registryOf files).Distinct) :
    (registryOf others).Distinct := by
  have hqualified : (consumersOf files).map (·.qualified) =
      (consumersOf others).map (·.qualified) := by
    rw [← List.forall₂_eq_eq_eq, List.forall₂_map_left_iff, List.forall₂_map_right_iff]
    exact h.consumers.imp fun _ _ => Consumer.IsRetyped.qualified
  refine ⟨?_, ?_⟩
  · have hentries := hdistinct.entries
    rwa [registryOf, h.entries] at hentries
  · have hconsumers := hdistinct.consumers
    rwa [registryOf, hqualified] at hconsumers

/-- A pass that succeeds does so on retyped files that keep the names, with the same plan. -/
theorem AreRetyped.generate_eq_ok (h : AreRetyped files others) (hnames : KeepNames files others)
    (hok : (generate files).outcome = .ok plan) : (generate others).outcome = .ok plan := by
  obtain ⟨hdistinct, honce, hanswers⟩ := PreferenceInjector.generate_eq_ok.mp hok
  rw [h.requests] at honce
  apply PreferenceInjector.generate_eq_ok.mpr
  refine ⟨h.distinct hdistinct, honce, ?_⟩
  rw [← h.requests]
  apply forall₂_imp_of_mem hanswers
  intro request hrequest injector _ hanswered
  obtain ⟨consumer, hmem, hname, hwires⟩ := hanswered
  have hpairs := List.Forall₂.mp (fun _ _ hshape hkeeps => And.intro hshape hkeeps)
    h.consumers hnames
  obtain ⟨other, hother, hshape, hkeeps⟩ := exists_of_forall₂_mem hpairs.flip hmem
  have hrequested : consumer.qualified ∈ (requestsOf files).map (·.target) :=
    List.mem_map.mpr ⟨request, hrequest, hname.symm⟩
  exact ⟨other, hother, hshape.qualified.symm.trans hname,
    hwires.of_keepsNames hshape (hkeeps hrequested)⟩

/-- Retyped files with the same plan keep the names. -/
theorem AreRetyped.keepNames (h : AreRetyped files others)
    (hok : (generate files).outcome = .ok plan) (hok' : (generate others).outcome = .ok plan) :
    KeepNames files others := by
  obtain ⟨hdistinct, -, hanswers⟩ := PreferenceInjector.generate_eq_ok.mp hok
  obtain ⟨hdistinct', -, hanswers'⟩ := PreferenceInjector.generate_eq_ok.mp hok'
  rw [← h.requests] at hanswers'
  have hboth := exists_forall₂_iff.mp ⟨plan, List.Forall₂.mp
    (fun _ _ hanswer hanswer' => And.intro hanswer hanswer') hanswers hanswers'⟩
  apply forall₂_imp_of_mem h.consumers
  intro consumer hconsumer other hother hshape hrequested
  obtain ⟨request, hrequest, htarget⟩ := List.mem_map.mp hrequested
  obtain ⟨injector, ⟨found, hfound, hname, hwires⟩, ⟨found', hfound', hname', hwires'⟩⟩ :=
    hboth request hrequest
  have hsame : found = consumer := List.inj_on_of_nodup_map hdistinct.consumers hfound hconsumer
    (hname.trans htarget)
  have hsame' : found' = other := List.inj_on_of_nodup_map hdistinct'.consumers hfound' hother
    ((hname'.trans htarget).trans hshape.qualified)
  rw [hsame] at hwires
  rw [hsame'] at hwires'
  exact hwires.keepsNames hwires' hshape

/-- Two passes over retyped files agree when both fail or the names are kept. -/
theorem AreRetyped.agree_iff (h : AreRetyped files others) :
    (∀ plan, (generate files).outcome = .ok plan ↔ (generate others).outcome = .ok plan) ↔
      (Coherent files ∨ Coherent others → KeepNames files others) := by
  constructor
  · rintro hagree (hcoherent | hcoherent)
    · obtain ⟨plan, hok⟩ := hcoherent.exists_plan
      exact h.keepNames hok ((hagree plan).mp hok)
    · obtain ⟨plan, hok⟩ := hcoherent.exists_plan
      exact h.keepNames ((hagree plan).mpr hok) hok
  · intro hkeep plan
    constructor
    · intro hok
      exact h.generate_eq_ok (hkeep (Or.inl (Coherent.of_plan hok))) hok
    · intro hok
      have hnames := hkeep (Or.inr (Coherent.of_plan hok))
      exact h.symm.generate_eq_ok (hnames.symm h) hok

end Pass

end PreferenceInjector
