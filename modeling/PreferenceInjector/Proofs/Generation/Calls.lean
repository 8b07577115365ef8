import PreferenceInjector.Proofs.Generation.Registration

/-!
# Calls of a registry

A registry that is called again and again: components and classes are registered in any order, and
plans are asked for in between. A declaration is refused exactly when one of its kind and name was
accepted earlier, and a call that accepts nothing changes nothing, so a registry is at all times the
list of the declarations that it has accepted. Building a registry from files is one such run, which
ends at the first refusal.
-/

namespace PreferenceInjector

open Declaration (Entry File)

/-- A declaration that is to be registered. -/
inductive Registration where
  | component (entry : Entry)
  | consumer (consumer : Consumer)

namespace Registration

/-- The components among some declarations, with the classes they inject. -/
def entries (items : List Registration) : List Entry :=
  items.filterMap fun
    | component entry => some entry
    | consumer _ => none

/-- The classes among some declarations. -/
def consumers (items : List Registration) : List Consumer :=
  items.filterMap fun
    | component _ => none
    | consumer found => some found

/-- Two declarations of one kind and with one qualified name. -/
def Clashes : Registration → Registration → Prop
  | component entry, component other => entry.component.qualified = other.component.qualified
  | consumer found, consumer other => found.qualified = other.qualified
  | _, _ => False

/-- The declarations of some files, file by file, the components of a file before its classes. -/
def ofFiles (files : List File) : List Registration :=
  files.flatMap fun file => file.components.map component ++ file.classes.map consumer

variable {items : List Registration}

/-- No component has the name of a component when none clashes with it. -/
theorem component_notMem {entry : Entry} :
    entry.component.qualified ∉ (entries items).map (·.component.qualified) ↔
      ∀ earlier ∈ items, ¬ earlier.Clashes (component entry) := by
  induction items with
  | nil => simp [entries]
  | cons first items ih =>
    rw [List.forall_mem_cons, ← ih]
    cases first with
    | component found => simp [entries, Clashes, eq_comm]
    | consumer found => simp [entries, Clashes]

/-- No class has the name of a class when none clashes with it. -/
theorem consumer_notMem {found : Consumer} :
    found.qualified ∉ (consumers items).map (·.qualified) ↔
      ∀ earlier ∈ items, ¬ earlier.Clashes (consumer found) := by
  induction items with
  | nil => simp [consumers]
  | cons first items ih =>
    rw [List.forall_mem_cons, ← ih]
    cases first with
    | component entry => simp [consumers, Clashes]
    | consumer other => simp [consumers, Clashes, eq_comm]

end Registration

namespace Registry

/-- What a registry can be called for. -/
inductive Call where
  /-- A declaration is to be registered. -/
  | register (item : Registration)
  /-- A plan is asked for. -/
  | plan

/-- What a call results in. -/
inductive Answer where
  /-- The declaration is registered. -/
  | accepted
  /-- The declaration is not registered. -/
  | refused (failure : Failure)
  /-- The plan, or why there is none. -/
  | planned (plan : Reported (List Injector))

/-- The registry with one declaration more. -/
def register (registry : Registry) : Registration → Except Failure Registry
  | .component entry => registry.addComponent entry
  | .consumer consumer => registry.addConsumer consumer

/-- The registry after a call, and the answer. -/
def call (registry : Registry) : Call → Registry × Answer
  | .register item =>
    match registry.register item with
    | .ok next => (next, .accepted)
    | .error failure => (registry, .refused failure)
  | .plan => (registry, .planned registry.plan)

/-- The registry after some calls. -/
def after (registry : Registry) (calls : List Call) : Registry :=
  calls.foldl (fun registry call => (registry.call call).1) registry

/-- Some calls with their answers. -/
def history (registry : Registry) : List Call → List (Call × Answer)
  | [] => []
  | call :: calls =>
    (call, (registry.call call).2) :: history (registry.call call).1 calls

/-- The declarations that were accepted, in the order of their acceptance. -/
def accepted (history : List (Call × Answer)) : List Registration :=
  history.filterMap fun
    | (.register item, .accepted) => some item
    | _ => none

/-- The registry holds what was accepted. Components are kept in order, and a name is that of the
first accepted class that has it. -/
structure Holds (registry : Registry) (accepted : List Registration) : Prop where
  distinct : (registry.components.map (·.qualified)).Nodup
  entries : registry.entries = Registration.entries accepted
  consumer : ∀ name consumer, registry.consumer? name = some consumer ↔
    ∃ before later, Registration.consumers accepted = before ++ consumer :: later ∧
      consumer.qualified = name ∧ ∀ earlier ∈ before, earlier.qualified ≠ name

/-- A call accepts a declaration unless an earlier one clashes with it, and otherwise changes
nothing. -/
structure Responds (registry : Registry) (accepted : List Registration) : Prop where
  refused : ∀ item, (∃ failure, (registry.call (.register item)).2 = .refused failure) ↔
    ∃ earlier ∈ accepted, earlier.Clashes item
  unchanged : ∀ call, (registry.call call).2 ≠ .accepted → (registry.call call).1 = registry

/-! ### Registering -/

/-- The registry of all declarations of a list. -/
def holding (items : List Registration) : Registry :=
  ⟨Registration.entries items, Registration.consumers items⟩

variable {registry other : Registry} {items : List Registration} {item : Registration}

/-- More declarations extend a registry. -/
theorem holding_append (items more : List Registration) :
    holding (items ++ more) =
      (holding items).extend (Registration.entries more) (Registration.consumers more) := by
  simp [holding, extend, Registration.entries, Registration.consumers]

/-- A declaration is registered when the names stay distinct. -/
theorem register_eq_ok (h : (holding items).Distinct) :
    (holding items).register item = .ok other ↔
      other = holding (items ++ [item]) ∧ (holding (items ++ [item])).Distinct := by
  rw [holding_append]
  cases item with
  | component entry => exact addComponent_eq_ok h
  | consumer consumer => exact addConsumer_eq_ok h

/-- The names stay distinct when no declaration clashes with the new one. -/
theorem distinct_holding_append (h : (holding items).Distinct) :
    (holding (items ++ [item])).Distinct ↔ ∀ earlier ∈ items, ¬ earlier.Clashes item := by
  rw [holding_append]
  cases item with
  | component entry =>
    rw [← Registration.component_notMem]
    exact distinct_extend_entry h
  | consumer consumer =>
    rw [← Registration.consumer_notMem]
    exact distinct_extend_consumer h

/-- What is registered is accepted. -/
theorem call_of_ok (h : registry.register item = .ok other) :
    registry.call (.register item) = (other, .accepted) := by
  rw [call, h]

/-- What cannot be registered is refused, and nothing changes. -/
theorem call_of_error {failure : Failure} (h : registry.register item = .error failure) :
    registry.call (.register item) = (registry, .refused failure) := by
  rw [call, h]

/-- A declaration is refused when an earlier one clashes with it. -/
theorem refused_iff (h : (holding items).Distinct) :
    (∃ failure, ((holding items).call (.register item)).2 = .refused failure) ↔
      ∃ earlier ∈ items, earlier.Clashes item := by
  have hok : (∃ next, (holding items).register item = .ok next) ↔
      ∀ earlier ∈ items, ¬ earlier.Clashes item := by
    simp only [register_eq_ok h, distinct_holding_append h, exists_eq_left]
  cases hregister : (holding items).register item with
  | ok next =>
    have hnone := hok.mp ⟨next, hregister⟩
    simpa [call_of_ok hregister] using hnone
  | error failure =>
    have hsome := hok.not.mp (by simp [hregister])
    simpa [call_of_error hregister] using hsome

/-- A call that accepts nothing changes nothing. -/
theorem call_unchanged {call : Call} (h : (registry.call call).2 ≠ .accepted) :
    (registry.call call).1 = registry := by
  cases call with
  | plan => rfl
  | register item =>
    cases hregister : registry.register item with
    | ok next => exact (h (by rw [call_of_ok hregister])).elim
    | error failure => rw [call_of_error hregister]

/-! ### Runs -/

/-- One call: what it accepts is appended, and the names stay distinct. -/
theorem call_holding (h : (holding items).Distinct) (call : Call) :
    ((holding items).call call).1 =
        holding (items ++ accepted [(call, ((holding items).call call).2)]) ∧
      ((holding items).call call).1.Distinct := by
  cases call with
  | plan => simpa [Registry.call, accepted] using h
  | register item =>
    cases hregister : (holding items).register item with
    | ok next =>
      obtain ⟨rfl, hnext⟩ := (register_eq_ok h).mp hregister
      rw [call_of_ok hregister]
      exact ⟨rfl, hnext⟩
    | error failure => simpa [call_of_error hregister, accepted] using h

/-- A run: all that its calls accept is appended, and the names stay distinct. -/
theorem after_holding (h : (holding items).Distinct) (calls : List Call) :
    (holding items).after calls = holding (items ++ accepted ((holding items).history calls)) ∧
      ((holding items).after calls).Distinct := by
  induction calls generalizing items with
  | nil => simpa [after, history, accepted] using h
  | cons call calls ih =>
    obtain ⟨hcall, hdistinct⟩ := call_holding h call
    have hafter : (holding items).after (call :: calls) =
        ((holding items).call call).1.after calls := rfl
    have haccepted : accepted ((holding items).history (call :: calls)) =
        accepted [(call, ((holding items).call call).2)] ++
          accepted (((holding items).call call).1.history calls) := by
      rw [accepted, accepted, accepted, ← List.filterMap_append]
      rfl
    rw [hafter, haccepted, ← List.append_assoc]
    rw [hcall] at hdistinct ⊢
    exact ih hdistinct

/-- A registry with distinct names holds its declarations. -/
theorem holds_holding (h : (holding items).Distinct) : (holding items).Holds items where
  distinct := by simpa [components, Function.comp_def] using h.entries
  entries := rfl
  consumer name consumer := by
    rw [consumer?, List.find?_eq_some_iff_append]
    constructor
    · intro hfound
      obtain ⟨hname, before, later, hsplit, hbefore⟩ := hfound
      exact ⟨before, later, hsplit, by simpa using hname, by simpa using hbefore⟩
    · intro hfirst
      obtain ⟨before, later, hsplit, hname, hbefore⟩ := hfirst
      exact ⟨by simpa using hname, before, later, hsplit, by simpa using hbefore⟩

/-! ### Registries of files -/

section Files

variable {files : List File} {failure : Failure}

/-- Files are registered declaration by declaration. -/
theorem foldlM_addFile (files : List File) (registry : Registry) :
    files.foldlM addFile registry = (Registration.ofFiles files).foldlM register registry := by
  induction files generalizing registry with
  | nil => rfl
  | cons file files ih =>
    have hfile : (file.components.map Registration.component ++
        file.classes.map Registration.consumer).foldlM register registry =
          registry.addFile file := by
      rw [List.foldlM_append, List.foldlM_map, addFile]
      simp only [List.foldlM_map]
      rfl
    rw [Registration.ofFiles, List.flatMap_cons, List.foldlM_append, hfile, List.foldlM_cons]
    simp only [ih]
    rfl

/-- All declarations can be registered when every call is accepted. -/
theorem foldlM_register_eq_ok :
    items.foldlM register registry = .ok other ↔
      (∀ step ∈ registry.history (items.map .register), step.2 = .accepted) ∧
        other = registry.after (items.map .register) := by
  induction items generalizing registry with
  | nil => simp [history, after, pure, Except.pure, eq_comm]
  | cons item items ih =>
    rw [List.foldlM_cons, List.map_cons, history, List.forall_mem_cons]
    cases hregister : registry.register item with
    | ok next => simp [after, call_of_ok hregister, ih, bind, Except.bind]
    | error failure => simp [call_of_error hregister, bind, Except.bind]

/-- Registering ends at the first refusal. -/
theorem foldlM_register_eq_error :
    items.foldlM register registry = .error failure ↔
      ∃ before item later, items = before ++ item :: later ∧
        (∀ step ∈ registry.history (before.map .register), step.2 = .accepted) ∧
        ((registry.after (before.map .register)).call (.register item)).2 = .refused failure := by
  induction items generalizing registry with
  | nil => simp [pure, Except.pure]
  | cons first items ih =>
    rw [List.foldlM_cons]
    cases hregister : registry.register first with
    | ok next =>
      have hcall := call_of_ok hregister
      change items.foldlM register next = .error failure ↔ _
      rw [ih]
      constructor
      · intro h
        obtain ⟨before, item, later, rfl, haccepted, hrefused⟩ := h
        refine ⟨first :: before, item, later, rfl, ?_, ?_⟩
        · rw [List.map_cons, history, List.forall_mem_cons, hcall]
          exact ⟨rfl, haccepted⟩
        · simpa [after, hcall] using hrefused
      · intro h
        obtain ⟨before, item, later, hsplit, haccepted, hrefused⟩ := h
        cases before with
        | nil =>
          cases hsplit
          rw [List.map_nil, after, List.foldl_nil, hcall] at hrefused
          cases hrefused
        | cons _ before =>
          cases hsplit
          rw [List.map_cons, history, List.forall_mem_cons, hcall] at haccepted
          refine ⟨before, item, later, rfl, haccepted.2, ?_⟩
          simpa [after, hcall] using hrefused
    | error found =>
      have hcall := call_of_error hregister
      change Except.error found = Except.error failure ↔ _
      constructor
      · intro h
        cases h
        exact ⟨[], first, items, rfl, by simp [history], by simp [after, hcall]⟩
      · intro h
        obtain ⟨before, item, later, hsplit, haccepted, hrefused⟩ := h
        cases before with
        | nil =>
          cases hsplit
          rw [List.map_nil, after, List.foldl_nil, hcall] at hrefused
          cases hrefused
          rfl
        | cons _ before =>
          cases hsplit
          rw [List.map_cons, history, List.forall_mem_cons, hcall] at haccepted
          cases haccepted.1

/-- The registry of files is the one that holds their declarations, if none is refused. -/
theorem outcome_ofFiles :
    (ofFiles files).outcome = (Registration.ofFiles files).foldlM register {} := by
  rw [← foldlM_addFile]
  change (Reported.bind _ _).outcome = _
  cases hfold : files.foldlM addFile {} with
  | ok registry => rfl
  | error failure => rfl

end Files

/-- At every point of a run of calls, a registry that started empty holds what it has accepted, and
responds to the next call by it. The registry of some files is that of the run that registers their
declarations file by file, and fails with the first refusal. -/
theorem run_spec :
    (∀ calls, (after {} calls).Holds (accepted (history {} calls)) ∧
      (after {} calls).Responds (accepted (history {} calls))) ∧
    ∀ files,
      (∀ registry, (ofFiles files).outcome = .ok registry ↔
        (∀ step ∈ history {} ((Registration.ofFiles files).map .register), step.2 = .accepted) ∧
          registry = after {} ((Registration.ofFiles files).map .register)) ∧
      ∀ failure, (ofFiles files).outcome = .error failure ↔
        ∃ before item later, Registration.ofFiles files = before ++ item :: later ∧
          (∀ step ∈ history {} (before.map .register), step.2 = .accepted) ∧
          ((after {} (before.map .register)).call (.register item)).2 = .refused failure := by
  constructor
  · intro calls
    have hempty : (holding []).Distinct := ⟨List.nodup_nil, List.nodup_nil⟩
    obtain ⟨hafter, hdistinct⟩ := after_holding hempty calls
    change after {} calls = holding (accepted (history {} calls)) at hafter
    change (after {} calls).Distinct at hdistinct
    rw [hafter] at hdistinct ⊢
    exact ⟨holds_holding hdistinct, fun _ => refused_iff hdistinct, fun _ => call_unchanged⟩
  · intro files
    simp only [outcome_ofFiles]
    exact ⟨fun _ => foldlM_register_eq_ok, fun _ => foldlM_register_eq_error⟩

end Registry

end PreferenceInjector
