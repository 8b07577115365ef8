import PreferenceInjector.Proofs.Generation.Registration
import PreferenceInjector.Proofs.Generation.Wiring

/-!
# The generation pass

A pass succeeds exactly on coherent files: components and classes have distinct names, every
injected class is declared and injected once, and its marked fields resolve in the component that
injects it. It then results in one injector for each injected class, in the order of the requests.
-/

namespace PreferenceInjector

open Declaration (Entry File)

/-- The injected classes of all components with their components, in the order of registration. -/
def requestsOf (files : List File) : List Request :=
  (entriesOf files).flatMap fun entry => entry.injects.map fun target => ⟨entry.component, target⟩

/-- The conditions under which a pass over some files succeeds. -/
structure Coherent (files : List File) : Prop where
  /-- No two components have the same qualified name. -/
  components : ((entriesOf files).map (·.component.qualified)).Nodup
  /-- No two classes have the same qualified name. -/
  consumers : ((consumersOf files).map (·.qualified)).Nodup
  /-- Every injected class is declared. -/
  declared : ∀ request ∈ requestsOf files,
    ∃ consumer ∈ consumersOf files, consumer.qualified = request.target
  /-- No class is injected twice, by one component or by two. -/
  once : ((requestsOf files).map (·.target)).Nodup
  /-- Every marked field of an injected class resolves in the component that injects it. -/
  resolvable : ∀ request ∈ requestsOf files, ∀ consumer ∈ consumersOf files,
    consumer.qualified = request.target →
      ∀ field ∈ consumer.fields, field.marked = true → request.component.Resolves field

/-- The injector is the one of the requested class. -/
def Request.IsAnswered (files : List File) (request : Request) (injector : Injector) : Prop :=
  ∃ consumer ∈ consumersOf files, consumer.qualified = request.target ∧
    request.component.Wires consumer injector

namespace Registry

variable {registry : Registry}

/-- The first request is granted when its class is registered and was not requested earlier. -/
theorem grant_cons_eq_ok {earlier requests : List Request} {request : Request}
    {pairs : List (Component × Consumer)} :
    registry.grant earlier (request :: requests) = .ok pairs ↔
      request.target ∉ earlier.map (·.target) ∧
        ∃ consumer, registry.consumer? request.target = some consumer ∧
          ∃ more, registry.grant (earlier ++ [request]) requests = .ok more ∧
            pairs = (request.component, consumer) :: more := by
  have hearlier : earlier.find? (·.target == request.target) = none ↔
      request.target ∉ earlier.map (·.target) := by
    simp [List.find?_eq_none, List.mem_map]
  rw [grant, ← hearlier]
  cases hconsumer : registry.consumer? request.target with
  | none => simp
  | some consumer =>
    cases hfind : earlier.find? (·.target == request.target) with
    | none =>
      have hpairs : ∀ more, Except.ok ((request.component, consumer) :: more) =
          (.ok pairs : Except Failure _) ↔ pairs = (request.component, consumer) :: more := by
        simp [eq_comm]
      simp [except_bind_eq_ok, hpairs]
    | some first =>
      by_cases hsame : first.component.qualified = request.component.qualified
      · simp [hsame]
      · simp [hsame]

/-- Requests are granted when each class is registered and none is requested twice or was
requested earlier. -/
theorem grant_eq_ok {earlier requests : List Request} {pairs : List (Component × Consumer)} :
    registry.grant earlier requests = .ok pairs ↔
      List.Forall₂ (fun request pair => pair.1 = request.component ∧
        registry.consumer? request.target = some pair.2) requests pairs ∧
      (requests.map (·.target)).Nodup ∧
      ∀ request ∈ requests, request.target ∉ earlier.map (·.target) := by
  induction requests generalizing earlier pairs with
  | nil => simp [grant, eq_comm]
  | cons request requests ih =>
    -- What was requested earlier now includes the first request.
    have hothers : (∀ other ∈ requests, other.target ∉ (earlier ++ [request]).map (·.target)) ↔
        (∀ other ∈ requests, other.target ∉ earlier.map (·.target)) ∧
          request.target ∉ requests.map (·.target) := by
      simp only [List.map_append, List.map_singleton, List.mem_append, List.mem_singleton, not_or,
        forall_and, List.mem_map, not_exists, not_and]
    rw [grant_cons_eq_ok]
    simp only [ih, hothers, List.map_cons, List.nodup_cons, List.forall_mem_cons]
    constructor
    · intro h
      obtain ⟨hnew, consumer, hconsumer, more, ⟨hmore, hnodup, hall, hfirst⟩, rfl⟩ := h
      exact ⟨.cons ⟨rfl, hconsumer⟩ hmore, ⟨hfirst, hnodup⟩, hnew, hall⟩
    · intro h
      obtain ⟨hpairs, ⟨hfirst, hnodup⟩, hnew, hall⟩ := h
      cases hpairs with
      | @cons _ pair _ more hpair hmore =>
        obtain ⟨component, consumer⟩ := pair
        obtain ⟨rfl, hconsumer⟩ := hpair
        exact ⟨hnew, consumer, hconsumer, more, ⟨hmore, hnodup, hall, hfirst⟩, rfl⟩

/-- A class is registered under its name, which no other class has. -/
theorem consumer?_eq_some_iff (h : registry.Distinct) {name : String} {consumer : Consumer} :
    registry.consumer? name = some consumer ↔
      consumer ∈ registry.consumers ∧ consumer.qualified = name := by
  constructor
  · intro hfound
    exact ⟨List.mem_of_find?_eq_some hfound, by simpa using List.find?_some hfound⟩
  · intro hregistered
    obtain ⟨hmem, hname⟩ := hregistered
    cases hfound : registry.consumer? name with
    | none =>
      have hlisted := List.mem_map.mpr ⟨consumer, hmem, hname⟩
      exact (consumer?_eq_none_iff.mp hfound hlisted).elim
    | some found =>
      have hfoundName : found.qualified = name := by simpa using List.find?_some hfound
      have hsame := List.inj_on_of_nodup_map h.consumers (List.mem_of_find?_eq_some hfound) hmem
        (hfoundName.trans hname.symm)
      rw [hsame]

/-- The plan of a registry holds the wired injectors of all granted requests. -/
theorem plan_eq_ok {injectors : List Injector} :
    registry.plan.outcome = .ok injectors ↔
      ∃ pairs, registry.pairs = .ok pairs ∧
        List.Forall₂ (fun pair injector => Component.Wires pair.1 pair.2 injector) pairs
          injectors := by
  obtain ⟨skips, hskips⟩ : ∃ skips, (Reported.forEach
      (fun name => Reported.report (.skipped name)) registry.skipped).outcome = .ok skips := by
    apply Reported.exists_outcome_forEach
    exact fun name _ => ⟨(), Reported.outcome_report _⟩
  have hdiscard : (discard (Reported.forEach
      (fun name => Reported.report (.skipped name)) registry.skipped)).outcome = .ok () :=
    Reported.outcome_bind_eq_ok.mpr ⟨skips, hskips, rfl⟩
  simp only [plan, Reported.outcome_bind_eq_ok, Reported.outcome_ofExcept,
    Reported.outcome_forEach_eq_ok, injectorFor_eq_ok]
  constructor
  · intro h
    obtain ⟨pairs, hpairs, -, -, hinjectors⟩ := h
    exact ⟨pairs, hpairs, hinjectors⟩
  · intro h
    obtain ⟨pairs, hpairs, hinjectors⟩ := h
    exact ⟨pairs, hpairs, (), hdiscard, hinjectors⟩

end Registry

/-! ### Passes -/

section Pass

variable {files : List File} {injectors : List Injector}

/-- The registry of some files. -/
def registryOf (files : List File) : Registry := ⟨entriesOf files, consumersOf files⟩

/-- A request is answered by wiring the registered class to its component. -/
theorem Request.isAnswered_iff (h : (registryOf files).Distinct) {request : Request}
    {injector : Injector} :
    request.IsAnswered files injector ↔
      ∃ pair : Component × Consumer, (pair.1 = request.component ∧
        (registryOf files).consumer? request.target = some pair.2) ∧
        pair.1.Wires pair.2 injector := by
  simp only [Registry.consumer?_eq_some_iff h]
  constructor
  · intro hanswered
    obtain ⟨consumer, hmem, hname, hwires⟩ := hanswered
    exact ⟨(request.component, consumer), ⟨rfl, hmem, hname⟩, hwires⟩
  · intro hanswered
    obtain ⟨⟨component, consumer⟩, ⟨rfl, hmem, hname⟩, hwires⟩ := hanswered
    exact ⟨consumer, hmem, hname, hwires⟩

/-- A pass succeeds when the names are distinct, no class is requested twice, and every request is
answered. -/
theorem generate_eq_ok :
    (generate files).outcome = .ok injectors ↔
      (registryOf files).Distinct ∧ ((requestsOf files).map (·.target)).Nodup ∧
        List.Forall₂ (Request.IsAnswered files) (requestsOf files) injectors := by
  have hearlier : ∀ request ∈ requestsOf files,
      request.target ∉ ([] : List Request).map (·.target) :=
    fun _ _ => List.not_mem_nil
  rw [generate, Reported.outcome_bind_eq_ok]
  simp only [Registry.ofFiles_eq_ok, Registry.plan_eq_ok, Registry.pairs, Registry.grant_eq_ok]
  constructor
  · intro h
    obtain ⟨registry, ⟨rfl, hdistinct⟩, pairs, ⟨hpairs, honce, -⟩, hinjectors⟩ := h
    refine ⟨hdistinct, honce, ?_⟩
    exact (forall₂_comp.mpr ⟨pairs, hpairs, hinjectors⟩).imp
      fun _ _ => (Request.isAnswered_iff hdistinct).mpr
  · intro h
    obtain ⟨hdistinct, honce, hinjectors⟩ := h
    obtain ⟨pairs, hpairs, hinjectors⟩ := forall₂_comp.mp
      (hinjectors.imp fun _ _ => (Request.isAnswered_iff hdistinct).mp)
    exact ⟨registryOf files, ⟨rfl, hdistinct⟩, pairs, ⟨hpairs, honce, hearlier⟩, hinjectors⟩

/-- Some injector answers each request of coherent files. -/
theorem Coherent.exists_answers (h : Coherent files) :
    ∃ injectors, List.Forall₂ (Request.IsAnswered files) (requestsOf files) injectors := by
  apply exists_forall₂_iff.mpr
  intro request hrequest
  obtain ⟨consumer, hmem, hname⟩ := h.declared request hrequest
  obtain ⟨injector, hwires⟩ := Component.exists_wires.mpr
    (h.resolvable request hrequest consumer hmem hname)
  exact ⟨injector, consumer, hmem, hname, hwires⟩

/-- Files are coherent when the names are distinct, no class is requested twice, and every request
is answered. -/
theorem Coherent.of_answers (hdistinct : (registryOf files).Distinct)
    (honce : ((requestsOf files).map (·.target)).Nodup)
    (h : List.Forall₂ (Request.IsAnswered files) (requestsOf files) injectors) :
    Coherent files := by
  have hanswer := exists_forall₂_iff.mp ⟨injectors, h⟩
  refine ⟨hdistinct.entries, hdistinct.consumers, ?_, honce, ?_⟩
  · intro request hrequest
    obtain ⟨injector, consumer, hmem, hname, -⟩ := hanswer request hrequest
    exact ⟨consumer, hmem, hname⟩
  · intro request hrequest consumer hmem hname
    obtain ⟨injector, found, hfound, hfoundName, hwires⟩ := hanswer request hrequest
    have hsame := List.inj_on_of_nodup_map hdistinct.consumers hfound hmem
      (hfoundName.trans hname.symm)
    rw [← hsame]
    exact Component.exists_wires.mp ⟨injector, hwires⟩

/-- The names in coherent files are distinct. -/
theorem Coherent.distinct (h : Coherent files) : (registryOf files).Distinct :=
  ⟨h.components, h.consumers⟩

/-- Coherent files have a plan. -/
theorem Coherent.exists_plan (h : Coherent files) :
    ∃ injectors, (generate files).outcome = .ok injectors := by
  obtain ⟨injectors, hanswers⟩ := h.exists_answers
  exact ⟨injectors, generate_eq_ok.mpr ⟨h.distinct, h.once, hanswers⟩⟩

/-- Files with a plan are coherent. -/
theorem Coherent.of_plan (h : (generate files).outcome = .ok injectors) : Coherent files := by
  obtain ⟨hdistinct, honce, hanswers⟩ := generate_eq_ok.mp h
  exact Coherent.of_answers hdistinct honce hanswers

end Pass

/-- A pass succeeds exactly on coherent files, with one injector for each request, in order. -/
theorem generate_spec (files : List File) :
    ((∃ injectors, (generate files).outcome = .ok injectors) ↔ Coherent files) ∧
      ∀ injectors, (generate files).outcome = .ok injectors ↔
        Coherent files ∧ List.Forall₂ (Request.IsAnswered files) (requestsOf files) injectors := by
  constructor
  · constructor
    · intro h
      obtain ⟨injectors, hok⟩ := h
      exact Coherent.of_plan hok
    · exact Coherent.exists_plan
  · intro injectors
    constructor
    · intro hok
      exact ⟨Coherent.of_plan hok, (generate_eq_ok.mp hok).2.2⟩
    · intro h
      obtain ⟨hcoherent, hanswers⟩ := h
      exact generate_eq_ok.mpr ⟨hcoherent.distinct, hcoherent.once, hanswers⟩

end PreferenceInjector
