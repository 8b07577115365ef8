import Mathlib.Data.List.Nodup
import PreferenceInjector.Proofs.Reported
import PreferenceInjector.Registry

/-!
# Registration

A registry keeps the names of its components distinct, and those of its classes. Registering a
component or a class succeeds exactly when they stay distinct, so the invariant alone decides
whether the declarations of some files can be registered, and the registry then holds them all in
the order of the files.
-/

namespace PreferenceInjector

open Declaration (Entry File)

/-- The components of some files with the classes they inject, in order. -/
def entriesOf (files : List File) : List Entry := files.flatMap (·.components)

/-- The classes of some files, in order. -/
def consumersOf (files : List File) : List Consumer := files.flatMap (·.classes)

namespace Registry

/-- No two components and no two classes have the same qualified name. -/
structure Distinct (registry : Registry) : Prop where
  entries : (registry.entries.map (·.component.qualified)).Nodup
  consumers : (registry.consumers.map (·.qualified)).Nodup

/-- The registry with some components and classes more. -/
def extend (registry : Registry) (entries : List Entry) (consumers : List Consumer) : Registry :=
  ⟨registry.entries ++ entries, registry.consumers ++ consumers⟩

variable {registry other : Registry}

/-- Extending by nothing. -/
@[simp] theorem extend_nil (registry : Registry) : registry.extend [] [] = registry := by
  simp [extend]

/-- Extending twice. -/
@[simp] theorem extend_extend (registry : Registry) (entries more : List Entry)
    (consumers others : List Consumer) :
    (registry.extend entries consumers).extend more others =
      registry.extend (entries ++ more) (consumers ++ others) := by
  simp [extend]

/-- What is distinct after an extension was so before it. -/
theorem Distinct.of_extend {entries : List Entry} {consumers : List Consumer}
    (h : (registry.extend entries consumers).Distinct) : registry.Distinct := by
  obtain ⟨hentries, hconsumers⟩ := h
  rw [extend, List.map_append] at hentries hconsumers
  exact ⟨hentries.of_append_left, hconsumers.of_append_left⟩

/-- A class is found under its name. -/
theorem consumer?_eq_none_iff {name : String} :
    registry.consumer? name = none ↔ name ∉ registry.consumers.map (·.qualified) := by
  rw [consumer?, List.find?_eq_none, List.mem_map]
  constructor
  · intro h hboth
    obtain ⟨consumer, hmem, rfl⟩ := hboth
    exact h consumer hmem (beq_self_eq_true _)
  · intro h consumer hmem hname
    exact h ⟨consumer, hmem, beq_iff_eq.mp hname⟩

/-- The names of the components stay distinct when a new one is added. -/
theorem distinct_extend_entry {entry : Entry} (h : registry.Distinct) :
    (registry.extend [entry] []).Distinct ↔
      entry.component.qualified ∉ registry.entries.map (·.component.qualified) := by
  constructor
  · intro hextended hmem
    have hnodup := hextended.entries
    rw [extend, List.map_append, List.nodup_append] at hnodup
    exact hnodup.2.2 _ hmem _ List.mem_cons_self rfl
  · intro hnew
    refine ⟨?_, by simpa [extend] using h.consumers⟩
    rw [extend, List.map_append, List.nodup_append]
    refine ⟨h.entries, List.nodup_singleton _, ?_⟩
    intro name hname other hother heq
    rw [List.map_singleton, List.mem_singleton] at hother
    exact hnew (hother ▸ heq ▸ hname)

/-- The names of the classes stay distinct when a new one is added. -/
theorem distinct_extend_consumer {consumer : Consumer} (h : registry.Distinct) :
    (registry.extend [] [consumer]).Distinct ↔
      consumer.qualified ∉ registry.consumers.map (·.qualified) := by
  constructor
  · intro hextended hmem
    have hnodup := hextended.consumers
    rw [extend, List.map_append, List.nodup_append] at hnodup
    exact hnodup.2.2 _ hmem _ List.mem_cons_self rfl
  · intro hnew
    refine ⟨by simpa [extend] using h.entries, ?_⟩
    rw [extend, List.map_append, List.nodup_append]
    refine ⟨h.consumers, List.nodup_singleton _, ?_⟩
    intro name hname other hother heq
    rw [List.map_singleton, List.mem_singleton] at hother
    exact hnew (hother ▸ heq ▸ hname)

/-- Registering a component succeeds when the names stay distinct. -/
theorem addComponent_eq_ok {entry : Entry} (h : registry.Distinct) :
    registry.addComponent entry = .ok other ↔
      other = registry.extend [entry] [] ∧ (registry.extend [entry] []).Distinct := by
  have hany : registry.components.any (·.qualified == entry.component.qualified) = true ↔
      entry.component.qualified ∈ registry.entries.map (·.component.qualified) := by
    simp [components, List.any_eq_true]
  rw [distinct_extend_entry h, ← hany, addComponent]
  by_cases hmem : registry.components.any (·.qualified == entry.component.qualified) = true
  · simp [hmem]
  · simp [hmem, extend, eq_comm]

/-- Registering a class succeeds when the names stay distinct. -/
theorem addConsumer_eq_ok {consumer : Consumer} (h : registry.Distinct) :
    registry.addConsumer consumer = .ok other ↔
      other = registry.extend [] [consumer] ∧ (registry.extend [] [consumer]).Distinct := by
  rw [distinct_extend_consumer h, ← consumer?_eq_none_iff, addConsumer]
  cases hfound : registry.consumer? consumer.qualified with
  | none => simp [extend, eq_comm]
  | some found => simp

section Fold

variable {α : Type} {add : Registry → α → Except Failure Registry} {grow : Registry → α → Registry}

/-- What is distinct at the end was so at the beginning. -/
theorem Distinct.of_foldl (hgrow : ∀ registry a, (grow registry a).Distinct → registry.Distinct)
    {items : List α} (h : (items.foldl grow registry).Distinct) : registry.Distinct := by
  induction items generalizing registry with
  | nil => exact h
  | cons a items ih => exact hgrow registry a (ih h)

/-- Steps that succeed when the names stay distinct succeed together when they are distinct at the
end. -/
theorem foldlM_eq_ok (hgrow : ∀ registry a, (grow registry a).Distinct → registry.Distinct)
    (hadd : ∀ registry a other, registry.Distinct →
      (add registry a = .ok other ↔ other = grow registry a ∧ (grow registry a).Distinct))
    (items : List α) (h : registry.Distinct) :
    items.foldlM add registry = .ok other ↔
      other = items.foldl grow registry ∧ (items.foldl grow registry).Distinct := by
  induction items generalizing registry with
  | nil =>
    constructor
    · intro hok
      cases hok
      exact ⟨rfl, h⟩
    · intro hfold
      obtain ⟨rfl, -⟩ := hfold
      rfl
  | cons a items ih =>
    rw [List.foldlM_cons, List.foldl_cons, except_bind_eq_ok]
    constructor
    · intro hfold
      obtain ⟨next, hstep, hok⟩ := hfold
      obtain ⟨rfl, hnext⟩ := (hadd registry a next h).mp hstep
      exact (ih hnext).mp hok
    · intro hfold
      obtain ⟨hother, hdistinct⟩ := hfold
      have hnext := Distinct.of_foldl hgrow hdistinct
      exact ⟨_, (hadd registry a _ h).mpr ⟨rfl, hnext⟩, (ih hnext).mpr ⟨hother, hdistinct⟩⟩

end Fold

/-- Registering components one after the other. -/
theorem foldl_entries (entries : List Entry) (registry : Registry) :
    entries.foldl (fun registry entry => registry.extend [entry] []) registry =
      registry.extend entries [] := by
  induction entries generalizing registry with
  | nil => simp
  | cons entry entries ih => simp [ih]

/-- Registering classes one after the other. -/
theorem foldl_consumers (consumers : List Consumer) (registry : Registry) :
    consumers.foldl (fun registry consumer => registry.extend [] [consumer]) registry =
      registry.extend [] consumers := by
  induction consumers generalizing registry with
  | nil => simp
  | cons consumer consumers ih => simp [ih]

/-- Registering files one after the other. -/
theorem foldl_files (files : List File) (registry : Registry) :
    files.foldl (fun registry file => registry.extend file.components file.classes) registry =
      registry.extend (entriesOf files) (consumersOf files) := by
  induction files generalizing registry with
  | nil => simp [entriesOf, consumersOf]
  | cons file files ih => simp [ih, entriesOf, consumersOf]

/-- Registering a file succeeds when the names stay distinct. -/
theorem addFile_eq_ok {file : File} (h : registry.Distinct) :
    registry.addFile file = .ok other ↔
      other = registry.extend file.components file.classes ∧
        (registry.extend file.components file.classes).Distinct := by
  have hentries : ∀ middle, file.components.foldlM addComponent registry = .ok middle ↔
      middle = registry.extend file.components [] ∧
        (registry.extend file.components []).Distinct := by
    intro middle
    rw [← foldl_entries]
    exact foldlM_eq_ok (fun _ _ => Distinct.of_extend) (fun _ _ _ => addComponent_eq_ok) _ h
  have hconsumers : ∀ middle : Registry, middle.Distinct →
      (file.classes.foldlM addConsumer middle = .ok other ↔
        other = middle.extend [] file.classes ∧ (middle.extend [] file.classes).Distinct) := by
    intro middle hmiddle
    rw [← foldl_consumers]
    exact foldlM_eq_ok (fun _ _ => Distinct.of_extend) (fun _ _ _ => addConsumer_eq_ok) _ hmiddle
  have hsplit : registry.extend file.components file.classes =
      (registry.extend file.components []).extend [] file.classes := by simp
  rw [addFile, hsplit, except_bind_eq_ok]
  constructor
  · intro hfile
    obtain ⟨middle, hfold, hok⟩ := hfile
    obtain ⟨rfl, hmiddle⟩ := (hentries middle).mp hfold
    exact (hconsumers _ hmiddle).mp hok
  · intro hfile
    obtain ⟨hother, hdistinct⟩ := hfile
    have hmiddle := Distinct.of_extend hdistinct
    exact ⟨_, (hentries _).mpr ⟨rfl, hmiddle⟩, (hconsumers _ hmiddle).mpr ⟨hother, hdistinct⟩⟩

/-- The declarations of some files can be registered when their names are distinct. -/
theorem ofFiles_eq_ok {files : List File} :
    (ofFiles files).outcome = .ok registry ↔
      registry = ⟨entriesOf files, consumersOf files⟩ ∧ registry.Distinct := by
  have hempty : Distinct {} := ⟨List.nodup_nil, List.nodup_nil⟩
  have hfold : files.foldlM addFile {} = .ok registry ↔
      registry = Registry.extend {} (entriesOf files) (consumersOf files) ∧
        (Registry.extend {} (entriesOf files) (consumersOf files)).Distinct := by
    rw [← foldl_files]
    exact foldlM_eq_ok (fun _ _ => Distinct.of_extend) (fun _ _ _ => addFile_eq_ok) files hempty
  have houtcome : (ofFiles files).outcome = .ok registry ↔
      files.foldlM addFile {} = .ok registry := by
    simp [ofFiles, Reported.outcome_bind_eq_ok]
  rw [houtcome, hfold]
  constructor
  · intro h
    obtain ⟨rfl, hdistinct⟩ := h
    exact ⟨rfl, hdistinct⟩
  · intro h
    obtain ⟨rfl, hdistinct⟩ := h
    exact ⟨rfl, hdistinct⟩

end Registry

end PreferenceInjector
