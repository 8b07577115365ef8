import Mathlib.Data.List.Perm.Basic
import PreferenceInjector.Output
import PreferenceInjector.Proofs.Generation.Pass

/-!
# Declarations in another order

The order of declarations, and the way in which they are spread over files, decides only the order
of the injectors and which of several failures is reported. Files that hold the same components and
the same classes are coherent together and answer each request alike, so the injectors of one pass
are those of the other, in the order in which the components ask for them.
-/

namespace PreferenceInjector

open Declaration (Entry File)

/-- The files hold the same components and the same classes, in any order and in any files. -/
structure Rearranged (files others : List File) : Prop where
  /-- The components are the same, each with the classes it injects. -/
  entries : (entriesOf files).Perm (entriesOf others)
  /-- The classes are the same. -/
  consumers : (consumersOf files).Perm (consumersOf others)

/-- A class is wired to a component by one injector. -/
theorem Component.Wires.unique {component : Component} {consumer : Consumer}
    {injector other : Injector} (h : component.Wires consumer injector)
    (h' : component.Wires consumer other) : injector = other := by
  have hok := (Registry.injectorFor_eq_ok.mpr h).symm.trans (Registry.injectorFor_eq_ok.mpr h')
  cases hok
  rfl

/-- A request is answered by one injector when the names are distinct. -/
theorem Request.IsAnswered.unique {files : List File} (hdistinct : (registryOf files).Distinct)
    {request : Request} {injector other : Injector} (h : request.IsAnswered files injector)
    (h' : request.IsAnswered files other) : injector = other := by
  obtain ⟨consumer, hmem, hname, hwires⟩ := h
  obtain ⟨consumer', hmem', hname', hwires'⟩ := h'
  obtain rfl := List.inj_on_of_nodup_map hdistinct.consumers hmem hmem' (hname.trans hname'.symm)
  exact hwires.unique hwires'

namespace Rearranged

variable {files others : List File} {plan other : List Injector}

/-- The other files hold what these files hold. -/
theorem symm (h : Rearranged files others) : Rearranged others files :=
  ⟨h.entries.symm, h.consumers.symm⟩

/-- The same requests are made. -/
theorem requests (h : Rearranged files others) : (requestsOf files).Perm (requestsOf others) :=
  h.entries.flatMap_right _

/-- The names are distinct in both or in none. -/
theorem distinct (h : Rearranged files others) (hdistinct : (registryOf files).Distinct) :
    (registryOf others).Distinct :=
  ⟨(h.entries.map _).nodup_iff.mp hdistinct.entries,
    (h.consumers.map _).nodup_iff.mp hdistinct.consumers⟩

/-- A request is answered alike. -/
theorem isAnswered_iff (h : Rearranged files others) {request : Request} {injector : Injector} :
    request.IsAnswered files injector ↔ request.IsAnswered others injector := by
  simp only [Request.IsAnswered, h.consumers.mem_iff]

/-- A plan for the files, in the order in which the other files make the requests, is a plan for
those. -/
theorem exists_plan (h : Rearranged files others) (hplan : (generate files).outcome = .ok plan) :
    ∃ other, (generate others).outcome = .ok other ∧ other.Perm plan := by
  obtain ⟨hdistinct, honce, hanswers⟩ := generate_eq_ok.mp hplan
  obtain ⟨other, hothers, hperm⟩ := List.perm_comp_forall₂ h.requests.symm hanswers
  have honce' : ((requestsOf others).map (·.target)).Nodup :=
    (h.requests.map _).nodup_iff.mp honce
  have hothers' : List.Forall₂ (Request.IsAnswered others) (requestsOf others) other :=
    hothers.imp fun _ _ => h.isAnswered_iff.mp
  exact ⟨other, generate_eq_ok.mpr ⟨h.distinct hdistinct, honce', hothers'⟩, hperm⟩

/-- Plans are equal when the components come in the same order. -/
theorem plan_eq (h : Rearranged files others) (hentries : entriesOf files = entriesOf others)
    (hplan : (generate files).outcome = .ok plan)
    (hother : (generate others).outcome = .ok other) : plan = other := by
  obtain ⟨hdistinct, -, hanswers⟩ := generate_eq_ok.mp hplan
  obtain ⟨-, -, hothers⟩ := generate_eq_ok.mp hother
  have hrequests : requestsOf files = requestsOf others := by
    rw [requestsOf, requestsOf, hentries]
  have hothers' : List.Forall₂ (Request.IsAnswered files) (requestsOf files) other := by
    rw [hrequests]
    exact hothers.imp fun _ _ => h.isAnswered_iff.mpr
  have hunique : Relator.RightUnique (Request.IsAnswered files) :=
    fun _ _ _ hinjector hinjector' => hinjector.unique hdistinct hinjector'
  exact List.right_unique_forall₂' hunique hanswers hothers'

end Rearranged

/-- Files that hold the same declarations have a plan or have none together. Their plans hold the
same injectors, which are written to the same paths with the same texts, and the order of the
injectors follows that of the components alone. -/
theorem generate_of_rearranged {files others : List File} (h : Rearranged files others) :
    ((∃ plan, (generate files).outcome = .ok plan) ↔
      ∃ plan, (generate others).outcome = .ok plan) ∧
    ∀ plan other, (generate files).outcome = .ok plan → (generate others).outcome = .ok other →
      plan.Perm other ∧
      (∀ outDir options,
        (sourcesOf plan outDir options).Perm (sourcesOf other outDir options)) ∧
      (entriesOf files = entriesOf others → plan = other) := by
  constructor
  · constructor
    · intro hfiles
      obtain ⟨plan, hplan⟩ := hfiles
      obtain ⟨other, hother, -⟩ := h.exists_plan hplan
      exact ⟨other, hother⟩
    · intro hothers
      obtain ⟨other, hother⟩ := hothers
      obtain ⟨plan, hplan, -⟩ := h.symm.exists_plan hother
      exact ⟨plan, hplan⟩
  · intro plan other hplan hother
    have hperm : plan.Perm other := by
      obtain ⟨found, hfound, hperm⟩ := h.exists_plan hplan
      cases hfound.symm.trans hother
      exact hperm.symm
    refine ⟨hperm, fun outDir options => hperm.map _, ?_⟩
    exact fun hentries => h.plan_eq hentries hplan hother

/-- A component without wrappers that injects one class. -/
def entryInjecting (className target : String) (visible : isVisible className = true) : Entry where
  component := {
    package := "", className, visible, wrappers := [], nodup := List.nodup_nil
    wrapperNames := by simp }
  injects := [target]

/-- Two components in files of their own, the first one before the class that it injects. -/
def scatteredFiles : List File :=
  [⟨"a", "", [entryInjecting "A" "K" (by decide)], []⟩,
    ⟨"b", "", [entryInjecting "B" "L" (by decide)], [⟨"", "K", []⟩, ⟨"", "L", []⟩]⟩]

/-- The same declarations in one file and in another order. -/
def joinedFiles : List File :=
  [⟨"c", "", [entryInjecting "B" "L" (by decide), entryInjecting "A" "K" (by decide)],
    [⟨"", "L", []⟩, ⟨"", "K", []⟩]⟩]

/-- Joining the files exchanges the injectors. -/
theorem generate_of_rearranged_sample :
    Rearranged scatteredFiles joinedFiles ∧ ∃ plan other,
      (generate scatteredFiles).outcome = .ok plan ∧ (generate joinedFiles).outcome = .ok other ∧
        plan.Perm other ∧ plan ≠ other := by
  have h : Rearranged scatteredFiles joinedFiles := ⟨by decide, by decide⟩
  have hplan : (generate scatteredFiles).outcome = .ok [
      ⟨"K_Injector", "", ⟨"", "K"⟩, ⟨"", "PreferenceComponent_A"⟩, []⟩,
      ⟨"L_Injector", "", ⟨"", "L"⟩, ⟨"", "PreferenceComponent_B"⟩, []⟩] := by decide +kernel
  have hother : (generate joinedFiles).outcome = .ok [
      ⟨"L_Injector", "", ⟨"", "L"⟩, ⟨"", "PreferenceComponent_B"⟩, []⟩,
      ⟨"K_Injector", "", ⟨"", "K"⟩, ⟨"", "PreferenceComponent_A"⟩, []⟩] := by decide +kernel
  exact ⟨h, _, _, hplan, hother, ((generate_of_rearranged h).2 _ _ hplan hother).1, by decide⟩

end PreferenceInjector
