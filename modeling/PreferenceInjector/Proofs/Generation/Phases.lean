import PreferenceInjector.Proofs.Generation.Filling
import PreferenceInjector.Proofs.Generation.Pass

/-!
# The phases of a plan

All requests are granted before the first class is wired. So a request that cannot be granted ends
the plan before anything is reported, and the classes that nothing injects are reported before the
first class is wired. The classes are then wired in the order of the requests, up to the first one
with a field that does not resolve.
-/

namespace PreferenceInjector

variable {component : Component} {consumer : Consumer} {field : Field}

/-- The request is answered with the component that makes it and the registered class that it
names. -/
def Registry.Grants (registry : Registry) (request : Request) (pair : Component × Consumer) :
    Prop :=
  pair.1 = request.component ∧ pair.2 ∈ registry.consumers ∧ pair.2.qualified = request.target

/-- What is reported when a class is wired to a component: that its marked fields are resolved, and
that its injector is there with as many assignments. -/
def wiringEvents (pair : Component × Consumer) : List Event :=
  [.resolved pair.2.qualified pair.1.qualified (pair.2.fields.filter (·.marked)).length,
    .emitted (qualify pair.2.package (pair.2.name ++ "_Injector"))
      (pair.2.fields.filter (·.marked)).length]

namespace Registry

variable {registry : Registry}

/-! ### Granting -/

/-- Requests are granted to pairs that answer them, if no two name the same class. -/
theorem grant_nil_eq_ok (h : registry.Distinct) {requests : List Request}
    {pairs : List (Component × Consumer)} :
    registry.grant [] requests = .ok pairs ↔
      List.Forall₂ registry.Grants requests pairs ∧ (requests.map (·.target)).Nodup := by
  have hgrants : List.Forall₂ registry.Grants requests pairs ↔
      List.Forall₂ (fun request pair => pair.1 = request.component ∧
        registry.consumer? request.target = some pair.2) requests pairs := by
    simp only [consumer?_eq_some_iff h]
    rfl
  simp [hgrants, grant_eq_ok]

/-- Requests are granted when each one names a registered class and no two the same. -/
theorem exists_grant_nil_iff (h : registry.Distinct) {requests : List Request} :
    (∃ pairs, registry.grant [] requests = .ok pairs) ↔
      (∀ request ∈ requests, ∃ consumer ∈ registry.consumers,
        consumer.qualified = request.target) ∧ (requests.map (·.target)).Nodup := by
  have hgrants : ∀ request, (∃ pair, registry.Grants request pair) ↔
      ∃ consumer ∈ registry.consumers, consumer.qualified = request.target := by
    intro request
    constructor
    · intro hpair
      obtain ⟨pair, -, hmem, hname⟩ := hpair
      exact ⟨pair.2, hmem, hname⟩
    · intro hconsumer
      obtain ⟨consumer, hmem, hname⟩ := hconsumer
      exact ⟨(request.component, consumer), rfl, hmem, hname⟩
  simp only [grant_nil_eq_ok h, exists_and_right, exists_forall₂_iff, hgrants]

/-- The first request is granted by itself, and the others behind it. -/
theorem grant_cons (earlier : List Request) (request : Request) (requests : List Request) :
    registry.grant earlier (request :: requests) = (do
      let first ← registry.grant earlier [request]
      let more ← registry.grant (earlier ++ [request]) requests
      .ok (first ++ more)) := by
  rw [grant, grant]
  cases registry.consumer? request.target with
  | none => rfl
  | some consumer =>
    cases earlier.find? (·.target == request.target) with
    | none => rfl
    | some first =>
      by_cases hsame : first.component.qualified = request.component.qualified
      · simp [hsame, bind, Except.bind]
      · simp [hsame, bind, Except.bind]

/-- Granting fails with the first request that is not granted behind those before it. -/
theorem exists_refused_of_grant {earlier requests : List Request} {failure : Failure}
    (h : registry.grant earlier requests = .error failure) :
    ∃ before request later, requests = before ++ request :: later ∧
      (∃ pairs, registry.grant earlier before = .ok pairs) ∧
      registry.grant (earlier ++ before) [request] = .error failure := by
  induction requests generalizing earlier with
  | nil => cases h
  | cons request requests ih =>
    rw [grant_cons] at h
    cases hfirst : registry.grant earlier [request] with
    | error found =>
      rw [hfirst] at h
      cases h
      exact ⟨[], request, requests, rfl, ⟨[], rfl⟩, by rwa [List.append_nil]⟩
    | ok first =>
      cases hrest : registry.grant (earlier ++ [request]) requests with
      | ok more =>
        rw [hfirst, hrest] at h
        cases h
      | error found =>
        rw [hfirst, hrest] at h
        cases h
        obtain ⟨before, refused, later, rfl, ⟨pairs, hpairs⟩, hrefused⟩ := ih hrest
        refine ⟨request :: before, refused, later, rfl, ⟨first ++ pairs, ?_⟩, ?_⟩
        · rw [grant_cons, hfirst, hpairs]
          rfl
        · rwa [List.append_assoc] at hrefused

/-- A request is not granted when its class is not registered, or when an earlier request has the
same class; the failure says whether that was one of the same component. -/
theorem grant_singleton_eq_error {earlier : List Request} {request : Request} {failure : Failure}
    (h : registry.grant earlier [request] = .error failure) :
    (registry.consumer? request.target = none ∧
      failure = .unknownTarget request.component.qualified request.target) ∨
    ∃ first ∈ earlier, first.target = request.target ∧ failure =
      if first.component.qualified = request.component.qualified then
        .duplicate (.inject request.target request.component.qualified)
      else .severalComponents request.target first.component.qualified
        request.component.qualified := by
  rw [grant] at h
  cases hconsumer : registry.consumer? request.target with
  | none =>
    rw [hconsumer] at h
    cases h
    exact .inl ⟨rfl, rfl⟩
  | some consumer =>
    rw [hconsumer] at h
    cases hfind : earlier.find? (·.target == request.target) with
    | none =>
      rw [hfind] at h
      cases h
    | some first =>
      rw [hfind] at h
      refine .inr ⟨first, List.mem_of_find?_eq_some hfind, by simpa using List.find?_some hfind, ?_⟩
      by_cases hsame : first.component.qualified = request.component.qualified
      · simp only [if_pos hsame] at h ⊢
        cases h
        rfl
      · simp only [if_neg hsame] at h ⊢
        cases h
        rfl

/-- A plan whose requests are not granted fails without a report. -/
theorem plan_of_refused {failure : Failure} (h : registry.pairs = .error failure) :
    registry.plan = Reported.fail failure := by
  rw [plan, h]
  rfl

/-! ### Classes that are wired -/

/-- A class all of whose marked fields resolve is wired, with two reports. -/
theorem injectorFor_of_resolvesAll (h : component.ResolvesAll consumer) :
    ∃ injector, injectorFor component consumer =
      ⟨.ok injector, wiringEvents (component, consumer)⟩ := by
  obtain ⟨bindings, hbindings⟩ := Component.bindAll_of_resolvesAll h
  have hwires : component.Wires consumer (Injector.ofBindings consumer component bindings) :=
    Component.wires_iff_bindAll.mpr ⟨bindings, by rw [hbindings], rfl⟩
  have hlength := hwires.assignments.length_eq
  refine ⟨Injector.ofBindings consumer component bindings, ?_⟩
  rw [injectorFor, hbindings, wiringEvents, hlength]
  rfl

/-- A class all of whose marked fields resolve has an injector. -/
theorem exists_injectorFor (h : component.ResolvesAll consumer) :
    ∃ injector, (injectorFor component consumer).outcome = .ok injector := by
  simp only [injectorFor_eq_ok]
  exact Component.exists_wires.mpr h

/-- A class that stops at a field is not wired, and the field is reported. -/
theorem injectorFor_of_stopsAt (h : component.StopsAt consumer field) :
    injectorFor component consumer =
      Reported.unresolvable consumer.qualified field.name (simpleName field.type) := by
  rw [injectorFor, Component.bindAll_of_stopsAt h]
  rfl

/-- The classes that nothing injects are reported before the first class is wired. -/
theorem plan_of_granted {pairs : List (Component × Consumer)} (h : registry.pairs = .ok pairs) :
    registry.plan =
      ⟨(Reported.forEach (fun (component, consumer) => injectorFor component consumer)
          pairs).outcome,
        registry.skipped.map .skipped ++
          (Reported.forEach (fun (component, consumer) => injectorFor component consumer)
            pairs).events⟩ := by
  obtain ⟨done, hdone⟩ : ∃ done, List.Forall₂
      (fun name result => (Reported.report (.skipped name)).outcome = .ok result)
      registry.skipped done :=
    exists_forall₂_iff.mpr fun _ _ => ⟨(), rfl⟩
  have hskips : discard (Reported.forEach (fun name => Reported.report (.skipped name))
      registry.skipped) = ⟨.ok (), registry.skipped.map .skipped⟩ := by
    rw [Reported.forEach_of_ok hdone, Reported.discard_of_ok rfl, List.map_eq_flatMap]
    rfl
  rw [plan, h, Reported.ofExcept_ok_bind, hskips, Reported.bind_of_ok rfl]

/-- Classes all of whose marked fields resolve report that they are wired, and nothing else. -/
theorem flatMap_events_injectorFor {pairs : List (Component × Consumer)}
    (h : ∀ pair ∈ pairs, pair.1.ResolvesAll pair.2) :
    (pairs.flatMap fun pair => (injectorFor pair.1 pair.2).events) =
      pairs.flatMap wiringEvents := by
  apply List.flatMap_congr
  intro pair hpair
  obtain ⟨injector, hinjector⟩ := injectorFor_of_resolvesAll (h pair hpair)
  rw [hinjector]

/-- A plan succeeds when all marked fields of all classes resolve. -/
theorem plan_of_resolvesAll {pairs : List (Component × Consumer)} (h : registry.pairs = .ok pairs)
    (hall : ∀ pair ∈ pairs, pair.1.ResolvesAll pair.2) :
    ∃ injectors, registry.plan =
      ⟨.ok injectors, registry.skipped.map .skipped ++ pairs.flatMap wiringEvents⟩ := by
  obtain ⟨injectors, hinjectors⟩ := exists_forall₂_iff.mpr
    fun pair hpair => exists_injectorFor (hall pair hpair)
  refine ⟨injectors, ?_⟩
  rw [plan_of_granted h, Reported.forEach_of_ok hinjectors, ← flatMap_events_injectorFor hall]

/-- A plan fails at the first class that stops at a field. -/
theorem plan_of_stopsAt {before later : List (Component × Consumer)}
    (h : registry.pairs = .ok (before ++ (component, consumer) :: later))
    (hbefore : ∀ pair ∈ before, pair.1.ResolvesAll pair.2)
    (hstops : component.StopsAt consumer field) :
    registry.plan =
      ⟨.error (.unresolvable consumer.qualified field.name (simpleName field.type)),
        registry.skipped.map .skipped ++ (before.flatMap wiringEvents ++
          [.unresolvable consumer.qualified field.name (simpleName field.type)])⟩ := by
  have hstopped := injectorFor_of_stopsAt hstops
  have houtcome : (injectorFor component consumer).outcome =
      .error (.unresolvable consumer.qualified field.name (simpleName field.type)) := by
    rw [hstopped]
    rfl
  rw [plan_of_granted h, Reported.forEach_of_error (a := (component, consumer))
    (fun pair hpair => exists_injectorFor (hbefore pair hpair)) houtcome later,
    flatMap_events_injectorFor hbefore, hstopped]
  rfl

end Registry

end PreferenceInjector
