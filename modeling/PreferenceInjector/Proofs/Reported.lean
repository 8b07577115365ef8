import PreferenceInjector.Event
import PreferenceInjector.Proofs.RelatedLists

/-!
# Outcomes of reported computations

What a computation results in does not depend on what it reports. A computation succeeds when each
of its steps does, and a loop succeeds with one result for each element.
-/

namespace PreferenceInjector

/-- One step after another succeeds when both do. -/
theorem except_bind_eq_ok {ε α β : Type} {first : Except ε α} {next : α → Except ε β} {b : β} :
    first >>= next = .ok b ↔ ∃ a, first = .ok a ∧ next a = .ok b := by
  cases first with
  | ok a => simp [bind, Except.bind]
  | error failure => simp [bind, Except.bind]

/-- What follows a step that succeeds is computed from its result. -/
theorem except_bind_of_ok {ε α β : Type} {first : Except ε α} {a : α} (h : first = .ok a)
    (next : α → Except ε β) : first >>= next = next a := by
  rw [h]
  rfl

/-- One step after another fails when the first one does, or the second one after it. -/
theorem except_bind_eq_error {ε α β : Type} {first : Except ε α} {next : α → Except ε β}
    {failure : ε} :
    first >>= next = .error failure ↔
      first = .error failure ∨ ∃ a, first = .ok a ∧ next a = .error failure := by
  cases first with
  | ok a => simp [bind, Except.bind]
  | error found => simp [bind, Except.bind]

/-- A result with its failure changed is the same result. -/
theorem mapError_eq_ok {ε ε' α : Type} {change : ε → ε'} {result : Except ε α} {a : α} :
    result.mapError change = .ok a ↔ result = .ok a := by
  cases result with
  | ok found => simp [Except.mapError]
  | error failure => simp [Except.mapError]

/-- A result with its value changed is that of a value. -/
theorem except_map_eq_ok {ε α β : Type} {change : α → β} {result : Except ε α} {b : β} :
    result.map change = .ok b ↔ ∃ a, result = .ok a ∧ change a = b := by
  cases result with
  | ok found => simp [Except.map]
  | error failure => simp [Except.map]

/-- A result with its value changed fails as it did. -/
theorem except_map_eq_error {ε α β : Type} {change : α → β} {result : Except ε α} {failure : ε} :
    result.map change = .error failure ↔ result = .error failure := by
  cases result with
  | ok found => simp [Except.map]
  | error found => simp [Except.map]

/-- Steps over a list succeed when each of them does, with the results in the same order. -/
theorem mapM_eq_ok {ε α β : Type} {step : α → Except ε β} {elements : List α} {results : List β} :
    elements.mapM step = .ok results ↔
      List.Forall₂ (fun a b => step a = .ok b) elements results := by
  induction elements generalizing results with
  | nil => simp [pure, Except.pure, eq_comm]
  | cons a elements ih =>
    simp only [List.mapM_cons, except_bind_eq_ok, ih, List.forall₂_cons_left_iff]
    constructor
    · intro h
      obtain ⟨b, hb, bs, hbs, hresults⟩ := h
      cases hresults
      exact ⟨b, bs, hb, hbs, rfl⟩
    · intro h
      obtain ⟨b, bs, hb, hbs, rfl⟩ := h
      exact ⟨b, hb, bs, hbs, rfl⟩

/-- Steps over a list fail with the first failure of one of them. -/
theorem mapM_eq_error_iff {ε α β : Type} {step : α → Except ε β} {elements : List α}
    {failure : ε} :
    elements.mapM step = .error failure ↔ ∃ before a later, elements = before ++ a :: later ∧
      (∀ earlier ∈ before, ∃ b, step earlier = .ok b) ∧ step a = .error failure := by
  induction elements with
  | nil => simp [pure, Except.pure]
  | cons first elements ih =>
    rw [List.mapM_cons]
    constructor
    · intro h
      rcases except_bind_eq_error.mp h with hfirst | ⟨b, hfirst, hrest⟩
      · exact ⟨[], first, elements, rfl, by simp, hfirst⟩
      · rcases except_bind_eq_error.mp hrest with hrest | ⟨bs, -, hdone⟩
        · obtain ⟨before, a, later, rfl, hbefore, ha⟩ := ih.mp hrest
          exact ⟨first :: before, a, later, rfl,
            List.forall_mem_cons.mpr ⟨⟨b, hfirst⟩, hbefore⟩, ha⟩
        · cases hdone
    · rintro ⟨before, a, later, hsplit, hbefore, ha⟩
      cases before with
      | nil =>
        cases hsplit
        rw [ha]
        rfl
      | cons other before =>
        obtain ⟨⟨b, hfirst⟩, hearlier⟩ := List.forall_mem_cons.mp hbefore
        cases hsplit
        rw [except_bind_of_ok hfirst, ih.mpr ⟨before, a, later, rfl, hearlier, ha⟩]
        rfl

/-- Steps over a list fail with the failure of one of them. -/
theorem exists_of_mapM_eq_error {ε α β : Type} {step : α → Except ε β} {elements : List α}
    {failure : ε} (h : elements.mapM step = .error failure) :
    ∃ a ∈ elements, step a = .error failure := by
  obtain ⟨before, a, later, rfl, -, ha⟩ := mapM_eq_error_iff.mp h
  exact ⟨a, by simp, ha⟩

namespace Reported

variable {α β : Type}

/-- Computing nothing succeeds. -/
@[simp] theorem outcome_pure (a : α) : (pure a : Reported α).outcome = .ok a := rfl

/-- Computing nothing reports nothing. -/
@[simp] theorem events_pure (a : α) : (pure a : Reported α).events = [] := rfl

/-- A report succeeds. -/
@[simp] theorem outcome_report (event : Event) : (report event).outcome = .ok () := rfl

/-- A plain result is the outcome. -/
@[simp] theorem outcome_ofExcept (result : Except Failure α) :
    (ofExcept result).outcome = result := rfl

/-- What follows a plain result is computed from it. -/
theorem ofExcept_ok_bind (a : α) (next : α → Reported β) : ofExcept (.ok a) >>= next = next a :=
  rfl

/-- Nothing follows a plain failure. -/
theorem ofExcept_error_bind (failure : Failure) (next : α → Reported β) :
    ofExcept (.error failure) >>= next = fail failure := rfl

/-- One computation after another succeeds when both do. -/
theorem outcome_bind_eq_ok {first : Reported α} {next : α → Reported β} {b : β} :
    (first >>= next).outcome = .ok b ↔
      ∃ a, first.outcome = .ok a ∧ (next a).outcome = .ok b := by
  change (Reported.bind first next).outcome = .ok b ↔ _
  unfold Reported.bind
  cases first.outcome with
  | ok a => simp
  | error failure => simp

/-- What follows a success is computed from it, and its events come after. -/
theorem bind_of_ok {first : Reported α} {a : α} (h : first.outcome = .ok a)
    (next : α → Reported β) :
    first >>= next = ⟨(next a).outcome, first.events ++ (next a).events⟩ := by
  change Reported.bind first next = _
  rw [Reported.bind, h]

/-- Nothing follows a failure. -/
theorem bind_of_error {first : Reported α} {failure : Failure} (h : first.outcome = .error failure)
    (next : α → Reported β) : first >>= next = ⟨.error failure, first.events⟩ := by
  change Reported.bind first next = _
  rw [Reported.bind, h]

/-- A success whose result is not wanted. -/
theorem discard_of_ok {reported : Reported α} {a : α} (h : reported.outcome = .ok a) :
    discard reported = ⟨.ok (), reported.events⟩ := by
  change (reported >>= fun a => pure (Function.const α PUnit.unit a)) = _
  rw [bind_of_ok h, outcome_pure, events_pure, List.append_nil]

/-- A loop succeeds when its step does for every element, with the results in the same order. -/
theorem outcome_forEach_eq_ok {step : α → Reported β} {elements : List α} {results : List β} :
    (forEach step elements).outcome = .ok results ↔
      List.Forall₂ (fun a b => (step a).outcome = .ok b) elements results := by
  induction elements generalizing results with
  | nil => simp [forEach, eq_comm]
  | cons a elements ih =>
    simp only [forEach, outcome_bind_eq_ok, outcome_pure, ih, List.forall₂_cons_left_iff]
    constructor
    · intro h
      obtain ⟨b, hb, bs, hbs, hresults⟩ := h
      cases hresults
      exact ⟨b, bs, hb, hbs, rfl⟩
    · intro h
      obtain ⟨b, bs, hb, hbs, rfl⟩ := h
      exact ⟨b, hb, bs, hbs, rfl⟩

/-- A loop whose step does the same for every element does the same. -/
theorem forEach_congr {step other : α → Reported β} {elements : List α}
    (h : ∀ a ∈ elements, step a = other a) : forEach step elements = forEach other elements := by
  induction elements with
  | nil => rfl
  | cons a elements ih =>
    obtain ⟨ha, helements⟩ := List.forall_mem_cons.mp h
    rw [forEach, forEach, ha, ih helements]

/-- A loop over images is a loop over what they are images of. -/
theorem forEach_map {γ : Type} {step : β → Reported γ} (f : α → β) (elements : List α) :
    forEach step (elements.map f) = forEach (fun a => step (f a)) elements := by
  induction elements with
  | nil => rfl
  | cons a elements ih => rw [List.map_cons, forEach, forEach, ih]

/-- A loop succeeds when its step does for every element. -/
theorem exists_outcome_forEach {step : α → Reported β} {elements : List α}
    (h : ∀ a ∈ elements, ∃ b, (step a).outcome = .ok b) :
    ∃ results, (forEach step elements).outcome = .ok results := by
  simp only [outcome_forEach_eq_ok]
  exact exists_forall₂_iff.mpr h

/-- A loop whose steps all succeed reports what they report. -/
theorem forEach_of_ok {step : α → Reported β} {elements : List α} {results : List β}
    (h : List.Forall₂ (fun a b => (step a).outcome = .ok b) elements results) :
    forEach step elements = ⟨.ok results, elements.flatMap fun a => (step a).events⟩ := by
  induction h with
  | nil => rfl
  | cons ha _ ih =>
    rw [forEach, bind_of_ok ha, ih, bind_of_ok rfl, List.flatMap_cons]
    simp

/-- A loop ends at the first step that fails, after what the steps before it report. -/
theorem forEach_of_error {step : α → Reported β} {before : List α} {a : α} {failure : Failure}
    (hbefore : ∀ earlier ∈ before, ∃ b, (step earlier).outcome = .ok b)
    (ha : (step a).outcome = .error failure) (later : List α) :
    forEach step (before ++ a :: later) =
      ⟨.error failure, before.flatMap (fun a => (step a).events) ++ (step a).events⟩ := by
  induction before with
  | nil => rw [List.nil_append, forEach, bind_of_error ha, List.flatMap_nil, List.nil_append]
  | cons first before ih =>
    obtain ⟨⟨b, hb⟩, hbefore⟩ := List.forall_mem_cons.mp hbefore
    rw [List.cons_append, forEach, bind_of_ok hb, ih hbefore, bind_of_error rfl,
      List.flatMap_cons, List.append_assoc]

/-- A loop fails when some step does and all steps before it succeed. -/
theorem outcome_forEach_eq_error {step : α → Reported β} {elements : List α} {failure : Failure} :
    (forEach step elements).outcome = .error failure ↔ ∃ before a later,
      elements = before ++ a :: later ∧ (∀ earlier ∈ before, ∃ b, (step earlier).outcome = .ok b) ∧
        (step a).outcome = .error failure := by
  constructor
  · intro h
    have hfails : ¬ ∀ a ∈ elements, ∃ b, (step a).outcome = .ok b := by
      intro hall
      obtain ⟨results, hresults⟩ := exists_outcome_forEach hall
      cases h.symm.trans hresults
    obtain ⟨before, a, later, rfl, hbefore, ha⟩ := exists_first_of_not_forall hfails
    refine ⟨before, a, later, rfl, hbefore, ?_⟩
    cases houtcome : (step a).outcome with
    | ok b => exact (ha ⟨b, houtcome⟩).elim
    | error found =>
      rw [forEach_of_error hbefore houtcome] at h
      exact congrArg Except.error (Except.error.inj h)
  · rintro ⟨before, a, later, rfl, hbefore, ha⟩
    rw [forEach_of_error hbefore ha]

end Reported

end PreferenceInjector
