import PreferenceInjector.Proofs.Generation.Calls
import PreferenceInjector.Proofs.Generation.Phases

/-!
# The first problem of a plan

A plan can fail for many reasons at once: requests for classes that are not registered, classes that
are requested again, fields that do not resolve. What it fails with is decided by the order of the
requests alone. The first request with a problem wins over everything else, and only when there is
none does the first field count that does not resolve.

Whether a class is requested again by the same component or by another one is a matter of the place
of the component in the registry. The plan compares names, which is the same because no two
registered components share one.
-/

namespace PreferenceInjector

open Declaration (Entry)

namespace Registry

/-- The requests with the places of their components, in the order of the components and of their
classes. -/
def placedRequests (registry : Registry) : List (Nat × Request) :=
  registry.entries.zipIdx.flatMap fun (entry, place) =>
    entry.injects.map fun target => (place, ⟨entry.component, target⟩)

/-- Every request names a registered class, and no two requests name the same. -/
structure HasNoProblem (registry : Registry) (requests : List (Nat × Request)) : Prop where
  registered : ∀ placed ∈ requests, ∃ consumer ∈ registry.consumers,
    consumer.qualified = placed.2.target
  once : (requests.map (·.2.target)).Nodup

/-- What is wrong with a request that comes behind some others. -/
inductive HasProblem (registry : Registry) (earlier : List (Nat × Request)) :
    Nat × Request → Failure → Prop
  /-- The class is not registered. -/
  | unknown {place : Nat} {request : Request}
      (unregistered : ∀ consumer ∈ registry.consumers, consumer.qualified ≠ request.target) :
      HasProblem registry earlier (place, request)
        (.unknownTarget request.component.qualified request.target)
  /-- The class was requested earlier by the same component. -/
  | again {place : Nat} {first request : Request} {what : Duplicate}
      (requested : (place, first) ∈ earlier) (target : first.target = request.target)
      (wording : what.text =
        "inject " ++ request.target ++ " in component " ++ request.component.qualified) :
      HasProblem registry earlier (place, request) (.duplicate what)
  /-- The class was requested earlier by another component. -/
  | elsewhere {place other : Nat} {first request : Request}
      (requested : (other, first) ∈ earlier) (target : first.target = request.target)
      (another : other ≠ place) :
      HasProblem registry earlier (place, request)
        (.severalComponents request.target first.component.qualified request.component.qualified)

/-- The plan fails at the first problem: that of the first request that has one, and otherwise the
first field that does not resolve of the first class that has one. -/
structure FailsAtFirstProblem (registry : Registry) : Prop where
  request : ¬ registry.HasNoProblem registry.placedRequests →
    ∃ before placed later failure, registry.placedRequests = before ++ placed :: later ∧
      registry.HasNoProblem before ∧ registry.HasProblem before placed failure ∧
        registry.plan = Reported.fail failure
  field : registry.HasNoProblem registry.placedRequests →
    ∃ pairs, List.Forall₂ registry.Grants registry.requests pairs ∧
      ∀ failure, registry.plan.outcome = .error failure ↔
        ∃ before component consumer later field, pairs = before ++ (component, consumer) :: later ∧
          (∀ pair ∈ before, pair.1.ResolvesAll pair.2) ∧ component.StopsAt consumer field ∧
            failure = .unresolvable consumer.qualified field.name (simpleName field.type)

variable {registry : Registry}

/-! ### Places -/

/-- Without the places, the requests are those of the registry. -/
theorem map_placedRequests (registry : Registry) :
    registry.placedRequests.map (·.2) = registry.requests := by
  rw [placedRequests, requests, List.map_flatMap]
  simp only [List.map_map]
  conv_rhs => rw [← List.zipIdx_map_fst 0 registry.entries]
  rw [List.flatMap_map]
  rfl

/-- A request stands at the place of its component. -/
theorem exists_entry_of_placed {placed : Nat × Request} (h : placed ∈ registry.placedRequests) :
    ∃ entry, registry.entries[placed.1]? = some entry ∧
      placed.2.component = entry.component := by
  obtain ⟨⟨entry, place⟩, hentry, htarget⟩ := List.mem_flatMap.mp h
  obtain ⟨target, -, rfl⟩ := List.mem_map.mp htarget
  exact ⟨entry, by simpa [List.mem_zipIdx_iff_getElem?] using hentry, rfl⟩

/-- Two requests are of components with one name exactly when they stand at one place. -/
theorem qualified_eq_iff_place_eq (hdistinct : registry.Distinct) {placed other : Nat × Request}
    (h : placed ∈ registry.placedRequests) (h' : other ∈ registry.placedRequests) :
    placed.2.component.qualified = other.2.component.qualified ↔ placed.1 = other.1 := by
  obtain ⟨entry, hentry, hcomponent⟩ := exists_entry_of_placed h
  obtain ⟨entry', hentry', hcomponent'⟩ := exists_entry_of_placed h'
  constructor
  · intro hname
    have hplace : (registry.entries.map (·.component.qualified))[placed.1]? =
        (registry.entries.map (·.component.qualified))[other.1]? := by
      simp [hentry, hentry', ← hcomponent, ← hcomponent', hname]
    have hlength : placed.1 < (registry.entries.map (·.component.qualified)).length := by
      rw [List.length_map]
      exact (List.getElem?_eq_some_iff.mp hentry).1
    exact (List.getElem?_inj hlength hdistinct.entries).mp hplace
  · intro hplace
    rw [hplace, hentry'] at hentry
    cases hentry
    rw [hcomponent, hcomponent']

/-! ### The first problem -/

/-- Requests without a problem are granted. -/
theorem hasNoProblem_iff (hdistinct : registry.Distinct) {requests : List (Nat × Request)} :
    registry.HasNoProblem requests ↔
      ∃ pairs, registry.grant [] (requests.map (·.2)) = .ok pairs := by
  rw [exists_grant_nil_iff hdistinct, List.forall_mem_map, List.map_map]
  exact ⟨fun h => ⟨h.registered, h.once⟩, fun h => ⟨h.1, h.2⟩⟩

/-- A request that is not granted behind others has a problem. -/
theorem hasProblem_of_grant (hdistinct : registry.Distinct) {earlier : List (Nat × Request)}
    {placed : Nat × Request} {failure : Failure}
    (hearlier : ∀ first ∈ earlier, first ∈ registry.placedRequests)
    (hplaced : placed ∈ registry.placedRequests)
    (h : registry.grant (earlier.map (·.2)) [placed.2] = .error failure) :
    registry.HasProblem earlier placed failure := by
  obtain ⟨place, request⟩ := placed
  rcases grant_singleton_eq_error h with ⟨hnone, rfl⟩ | ⟨first, hmem, htarget, rfl⟩
  · refine .unknown ?_
    intro consumer hmem hname
    rw [consumer?_eq_none_iff] at hnone
    exact hnone (List.mem_map.mpr ⟨consumer, hmem, hname⟩)
  · obtain ⟨⟨other, first⟩, hfirst, rfl⟩ := List.mem_map.mp hmem
    have hsame := qualified_eq_iff_place_eq hdistinct (hearlier _ hfirst) hplaced
    by_cases hplace : other = place
    · subst hplace
      rw [if_pos (hsame.mpr rfl)]
      exact .again hfirst htarget rfl
    · rw [if_neg (hsame.not.mpr hplace)]
      exact .elsewhere hfirst htarget hplace

/-- A registry with distinct names fails at the first problem. -/
theorem Distinct.failsAtFirstProblem (hdistinct : registry.Distinct) :
    registry.FailsAtFirstProblem where
  request h := by
    rw [hasNoProblem_iff hdistinct, map_placedRequests] at h
    cases hpairs : registry.pairs with
    | ok pairs => exact (h ⟨pairs, hpairs⟩).elim
    | error failure =>
      obtain ⟨before, request, later, hsplit, hbefore, hrefused⟩ := exists_refused_of_grant hpairs
      rw [← map_placedRequests, List.map_eq_append_iff] at hsplit
      obtain ⟨placedBefore, rest, hplaced, rfl, hrest⟩ := hsplit
      obtain ⟨placed, placedLater, rfl, rfl, rfl⟩ := List.map_eq_cons_iff.mp hrest
      refine ⟨placedBefore, placed, placedLater, failure, hplaced,
        (hasNoProblem_iff hdistinct).mpr hbefore, ?_, plan_of_refused hpairs⟩
      refine hasProblem_of_grant hdistinct ?_ (by simp [hplaced]) hrefused
      intro first hfirst
      simp [hplaced, hfirst]
  field h := by
    rw [hasNoProblem_iff hdistinct, map_placedRequests] at h
    obtain ⟨pairs, hpairs⟩ := h
    refine ⟨pairs, ((grant_nil_eq_ok hdistinct).mp hpairs).1, ?_⟩
    intro failure
    constructor
    · intro hfailure
      by_cases hall : ∀ pair ∈ pairs, pair.1.ResolvesAll pair.2
      · obtain ⟨injectors, hplan⟩ := plan_of_resolvesAll hpairs hall
        rw [hplan] at hfailure
        cases hfailure
      · obtain ⟨before, ⟨component, consumer⟩, later, rfl, hbefore, hpair⟩ :=
          exists_first_of_not_forall hall
        obtain ⟨field, hstops⟩ := Component.exists_stopsAt hpair
        rw [plan_of_stopsAt hpairs hbefore hstops] at hfailure
        cases hfailure
        exact ⟨before, component, consumer, later, field, rfl, hbefore, hstops, rfl⟩
    · intro hfirst
      obtain ⟨before, component, consumer, later, field, rfl, hbefore, hstops, rfl⟩ := hfirst
      rw [plan_of_stopsAt hpairs hbefore hstops]

/-- At every point of a run of calls, a plan fails at the first problem in the order of the
requests. -/
theorem plan_fails_at_first_problem (calls : List Call) :
    (after {} calls).FailsAtFirstProblem := by
  have hempty : (holding []).Distinct := ⟨List.nodup_nil, List.nodup_nil⟩
  exact (after_holding hempty calls).2.failsAtFirstProblem

end Registry

end PreferenceInjector
