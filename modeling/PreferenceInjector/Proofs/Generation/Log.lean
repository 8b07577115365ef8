import PreferenceInjector.Proofs.Generation.Calls
import PreferenceInjector.Proofs.Generation.Phases

/-!
# The log of a pass

What a pass reports tells how far it came. Nothing is reported until all declarations are
registered, and no class until all requests are granted; from then on each class is reported when it
is wired. The only reports of level `error` are those of a field that does not resolve and, while a
file is read, of a malformed declaration. Each is made once and is the last report, because it is
made where the failure arises and nothing runs after a failure.
-/

namespace PreferenceInjector

open Declaration (ComponentTree Document Entry File componentTrees)

/-- The classes that no component injects, by their names in some order. -/
def AreSkipped (files : List File) (names : List String) : Prop :=
  names.Perm (((consumersOf files).map (·.qualified)).filter
    (· ∉ (requestsOf files).map (·.target)))

/-- The requests are answered with registered classes, each one with a class of its own. -/
structure AreGranted (files : List File) (pairs : List (Component × Consumer)) : Prop where
  granted : List.Forall₂ (registryOf files).Grants (requestsOf files) pairs
  once : ((requestsOf files).map (·.target)).Nodup

/-- The reports of a pass that has registered all declarations, skipped some classes and wired some
others. -/
def progressEvents (files : List File) (names : List String)
    (pairs : List (Component × Consumer)) : List Event :=
  .registered (entriesOf files).length (consumersOf files).length ::
    (names.map .skipped ++ pairs.flatMap wiringEvents)

/-- What a pass over some files reports along with its outcome. -/
inductive PassLog (files : List File) : Except Failure (List Injector) → List Event → Prop
  /-- Two components or two classes have one name. -/
  | clashing {what : Duplicate} (clash : ¬ (registryOf files).Distinct) :
      PassLog files (.error (.duplicate what)) []
  /-- A request names no registered class, or one that is requested earlier. -/
  | refused {failure : Failure} (distinct : (registryOf files).Distinct)
      (problem : (∃ request ∈ requestsOf files, ∀ consumer ∈ consumersOf files,
        consumer.qualified ≠ request.target) ∨ ¬ ((requestsOf files).map (·.target)).Nodup)
      (other : ∀ consumer field type, failure ≠ .unresolvable consumer field type) :
      PassLog files (.error failure)
        [.registered (entriesOf files).length (consumersOf files).length]
  /-- All classes are wired. -/
  | wired {injectors : List Injector} {names : List String} {pairs : List (Component × Consumer)}
      (distinct : (registryOf files).Distinct) (granted : AreGranted files pairs)
      (skipped : AreSkipped files names) (resolved : ∀ pair ∈ pairs, pair.1.ResolvesAll pair.2) :
      PassLog files (.ok injectors) (progressEvents files names pairs)
  /-- The classes are wired up to the first one with a field that does not resolve. -/
  | stopped {names : List String} {before later : List (Component × Consumer)}
      {component : Component} {consumer : Consumer} {field : Field}
      (distinct : (registryOf files).Distinct)
      (granted : AreGranted files (before ++ (component, consumer) :: later))
      (skipped : AreSkipped files names) (resolved : ∀ pair ∈ before, pair.1.ResolvesAll pair.2)
      (stops : component.StopsAt consumer field) :
      PassLog files
        (.error (.unresolvable consumer.qualified field.name (simpleName field.type)))
        (progressEvents files names before ++
          [.unresolvable consumer.qualified field.name (simpleName field.type)])

variable {files : List File}

/-! ### Registration -/

/-- Declarations with distinct names are registered, and their numbers are reported. -/
theorem ofFiles_of_distinct (h : (registryOf files).Distinct) :
    Registry.ofFiles files = ⟨.ok (registryOf files),
      [.registered (entriesOf files).length (consumersOf files).length]⟩ := by
  have houtcome := Registry.ofFiles_eq_ok.mpr ⟨rfl, h⟩
  rw [Registry.ofFiles] at houtcome ⊢
  cases hfold : files.foldlM Registry.addFile {} with
  | error failure =>
    rw [hfold] at houtcome
    cases houtcome
  | ok registry =>
    rw [hfold] at houtcome
    cases houtcome
    rfl

/-- A declaration that cannot be registered is a duplicate. -/
theorem exists_duplicate_of_register {registry : Registry} {item : Registration}
    {failure : Failure} (h : registry.register item = .error failure) :
    ∃ what, failure = .duplicate what := by
  cases item with
  | component entry =>
    rw [Registry.register, Registry.addComponent] at h
    split at h
    · cases h
      exact ⟨_, rfl⟩
    · cases h
  | consumer consumer =>
    rw [Registry.register, Registry.addConsumer] at h
    split at h
    · cases h
      exact ⟨_, rfl⟩
    · cases h

/-- Declarations that share a name are not registered, and nothing is reported. -/
theorem ofFiles_of_not_distinct (h : ¬ (registryOf files).Distinct) :
    ∃ what, Registry.ofFiles files = Reported.fail (.duplicate what) := by
  cases hfold : files.foldlM Registry.addFile {} with
  | ok registry =>
    have houtcome : (Registry.ofFiles files).outcome = .ok registry := by
      rw [Registry.ofFiles, hfold]
      rfl
    obtain ⟨rfl, hdistinct⟩ := Registry.ofFiles_eq_ok.mp houtcome
    exact (h hdistinct).elim
  | error failure =>
    obtain ⟨before, item, later, -, -, hrefused⟩ :=
      Registry.foldlM_register_eq_error.mp (Registry.foldlM_addFile files {} ▸ hfold)
    cases hregister : (Registry.after {} (before.map .register)).register item with
    | ok next =>
      rw [Registry.call_of_ok hregister] at hrefused
      cases hrefused
    | error found =>
      rw [Registry.call_of_error hregister] at hrefused
      cases hrefused
      obtain ⟨what, rfl⟩ := exists_duplicate_of_register hregister
      exact ⟨what, by rw [Registry.ofFiles, hfold]; rfl⟩

/-! ### Plans -/

/-- The classes that the registry of some files skips are those that no component injects. -/
theorem areSkipped_skipped (files : List File) : AreSkipped files (registryOf files).skipped := by
  have hfilter : ((consumersOf files).map (·.qualified)).filter
      (fun name => ! ((requestsOf files).map (·.target)).contains name) =
        ((consumersOf files).map (·.qualified)).filter
          (· ∉ (requestsOf files).map (·.target)) := by
    apply List.filter_congr
    intro name _
    rw [List.contains_eq_mem, decide_not]
  rw [AreSkipped, ← hfilter]
  exact List.mergeSort_perm _ _

/-- A request that cannot be granted names no registered class, or one that is requested earlier.
It is no field. -/
theorem problem_of_refused (hdistinct : (registryOf files).Distinct) {failure : Failure}
    (h : (registryOf files).pairs = .error failure) :
    ((∃ request ∈ requestsOf files, ∀ consumer ∈ consumersOf files,
      consumer.qualified ≠ request.target) ∨ ¬ ((requestsOf files).map (·.target)).Nodup) ∧
    ∀ consumer field type, failure ≠ .unresolvable consumer field type := by
  constructor
  · by_contra hnone
    push Not at hnone
    obtain ⟨pairs, hpairs⟩ := (Registry.exists_grant_nil_iff hdistinct).mpr hnone
    cases h.symm.trans hpairs
  · obtain ⟨before, request, later, -, -, hrefused⟩ := Registry.exists_refused_of_grant h
    intro consumer field type heq
    rcases Registry.grant_singleton_eq_error hrefused with ⟨-, rfl⟩ | ⟨first, -, -, rfl⟩
    · cases heq
    · split at heq
      · cases heq
      · cases heq

/-- A pass reports what its log says. -/
theorem passLog_generate (files : List File) :
    PassLog files (generate files).outcome (generate files).events := by
  by_cases hdistinct : (registryOf files).Distinct
  · have hgenerate : generate files = ⟨(registryOf files).plan.outcome,
        .registered (entriesOf files).length (consumersOf files).length ::
          (registryOf files).plan.events⟩ := by
      rw [generate, ofFiles_of_distinct hdistinct, Reported.bind_of_ok rfl]
      rfl
    rw [hgenerate]
    cases hpairs : (registryOf files).pairs with
    | error failure =>
      obtain ⟨hproblem, hother⟩ := problem_of_refused hdistinct hpairs
      rw [Registry.plan_of_refused hpairs]
      exact .refused hdistinct hproblem hother
    | ok pairs =>
      obtain ⟨hgrants, honce⟩ := (Registry.grant_nil_eq_ok hdistinct).mp hpairs
      by_cases hall : ∀ pair ∈ pairs, pair.1.ResolvesAll pair.2
      · obtain ⟨injectors, hplan⟩ := Registry.plan_of_resolvesAll hpairs hall
        rw [hplan]
        exact .wired hdistinct ⟨hgrants, honce⟩ (areSkipped_skipped files) hall
      · obtain ⟨before, ⟨component, consumer⟩, later, rfl, hbefore, hpair⟩ :=
          exists_first_of_not_forall hall
        obtain ⟨field, hstops⟩ := Component.exists_stopsAt hpair
        rw [Registry.plan_of_stopsAt hpairs hbefore hstops, ← List.append_assoc,
          ← List.cons_append]
        exact .stopped hdistinct ⟨hgrants, honce⟩ (areSkipped_skipped files) hbefore hstops
  · obtain ⟨what, hfail⟩ := ofFiles_of_not_distinct hdistinct
    rw [generate, hfail, Reported.bind_of_error rfl]
    exact .clashing hdistinct

/-! ### Reports of level error -/

/-- Progress is no error. -/
theorem filter_error_progressEvents (files : List File) (names : List String)
    (pairs : List (Component × Consumer)) :
    (progressEvents files names pairs).filter (·.level = .error) = [] := by
  rw [List.filter_eq_nil_iff]
  intro event hevent
  rw [progressEvents, List.mem_cons, List.mem_append] at hevent
  rcases hevent with rfl | hskipped | hwiring
  · simp [Event.level]
  · obtain ⟨name, -, rfl⟩ := List.mem_map.mp hskipped
    simp [Event.level]
  · obtain ⟨pair, -, hpair⟩ := List.mem_flatMap.mp hwiring
    simp only [wiringEvents, List.mem_cons, List.not_mem_nil, or_false] at hpair
    rcases hpair with rfl | rfl
    · simp [Event.level]
    · simp [Event.level]

/-- The only error in the log of a pass is a field that does not resolve. -/
theorem PassLog.filter_error {outcome : Except Failure (List Injector)} {events : List Event} :
    PassLog files outcome events → events.filter (·.level = .error) =
      match outcome with
      | .error (.unresolvable consumer field type) => [.unresolvable consumer field type]
      | _ => [] := by
  intro h
  cases h with
  | clashing clash => rfl
  | @refused failure distinct problem other =>
    cases failure with
    | unresolvable consumer field type => exact (other consumer field type rfl).elim
    | _ => rfl
  | wired distinct granted skipped resolved => exact filter_error_progressEvents _ _ _
  | stopped distinct granted skipped resolved stops =>
    rw [List.filter_append, filter_error_progressEvents]
    rfl

/-- Nothing is reported after a field that does not resolve. -/
theorem PassLog.getLast?_of_unresolvable {outcome : Except Failure (List Injector)}
    {events : List Event} (h : PassLog files outcome events) {consumer field type : String}
    (houtcome : outcome = .error (.unresolvable consumer field type)) :
    events.getLast? = some (.unresolvable consumer field type) := by
  cases h with
  | clashing clash => cases houtcome
  | refused distinct problem other =>
    cases houtcome
    exact (other _ _ _ rfl).elim
  | wired distinct granted skipped resolved => cases houtcome
  | stopped distinct granted skipped resolved stops =>
    cases houtcome
    exact List.getLast?_concat

/-! ### Malformed declarations -/

/-- A component is declared quietly or is malformed. -/
theorem entry_eq (package : String) (tree : ComponentTree) :
    (∃ entry, tree.entry package = pure entry) ∨
      ∃ text, tree.entry package = Reported.malformed text := by
  rw [ComponentTree.entry, Component.declare]
  split
  · exact .inl ⟨_, rfl⟩
  · exact .inr ⟨_, rfl⟩

/-- Components that are declared report nothing. -/
theorem flatMap_events_entry {package : String} {trees : List ComponentTree}
    (h : ∀ tree ∈ trees, ∃ entry, (tree.entry package).outcome = .ok entry) :
    (trees.flatMap fun tree => (tree.entry package).events) = [] := by
  rw [List.flatMap_eq_nil_iff]
  intro tree htree
  rcases entry_eq package tree with ⟨entry, hentry⟩ | ⟨text, hentry⟩
  · rw [hentry]
    rfl
  · obtain ⟨found, hfound⟩ := h tree htree
    rw [hentry] at hfound
    cases hfound

/-- A document declares a file quietly or is malformed. -/
theorem file_eq (document : Document) (path : String) :
    (∃ file, document.file path = pure file) ∨
      ∃ text, document.file path = Reported.malformed text := by
  rw [Document.file]
  by_cases hall : ∀ tree ∈ componentTrees document.items,
      ∃ entry, (tree.entry document.packageName).outcome = .ok entry
  · obtain ⟨entries, hentries⟩ := exists_forall₂_iff.mpr hall
    rw [Reported.forEach_of_ok hentries, flatMap_events_entry hall]
    exact .inl ⟨_, rfl⟩
  · obtain ⟨before, tree, later, hsplit, hbefore, htree⟩ := exists_first_of_not_forall hall
    rcases entry_eq document.packageName tree with ⟨entry, hentry⟩ | ⟨text, hentry⟩
    · exact (htree ⟨entry, by rw [hentry]; rfl⟩).elim
    · have houtcome : (tree.entry document.packageName).outcome = .error (.malformed text) := by
        rw [hentry]
        rfl
      rw [hsplit, Reported.forEach_of_error hbefore houtcome, flatMap_events_entry hbefore, hentry]
      exact .inr ⟨text, rfl⟩

/-- The only error in the log of a file that is read is that its declaration is malformed. -/
theorem filter_error_ofText (path text : String) :
    (File.ofText path text).events.filter (·.level = .error) =
      match (File.ofText path text).outcome with
      | .error (.malformed text) => [.malformed text]
      | _ => [] := by
  rw [File.ofText]
  cases Document.ofText? text.toList with
  | none => rfl
  | some document =>
    rcases file_eq document path with ⟨file, hfile⟩ | ⟨flaw, hfile⟩
    · simp only [hfile]
      rfl
    · simp only [hfile]
      rfl

/-- The log of a pass tells how far it came: up to the registration, the skipped classes, each
class that is wired, and the field that does not resolve. Such a field is the only error, and is
reported last and once; likewise a malformed declaration is the only error of a file that is
read. -/
theorem log_tells_what_happened :
    (∀ files, PassLog files (generate files).outcome (generate files).events ∧
      ((generate files).events.filter (·.level = .error) =
        match (generate files).outcome with
        | .error (.unresolvable consumer field type) => [.unresolvable consumer field type]
        | _ => []) ∧
      ∀ consumer field type,
        (generate files).outcome = .error (.unresolvable consumer field type) →
          (generate files).events.getLast? = some (.unresolvable consumer field type)) ∧
    ∀ path text, (File.ofText path text).events.filter (·.level = .error) =
      match (File.ofText path text).outcome with
      | .error (.malformed flaw) => [.malformed flaw]
      | _ => [] := by
  refine ⟨?_, filter_error_ofText⟩
  intro files
  have hlog := passLog_generate files
  exact ⟨hlog, hlog.filter_error, fun _ _ _ => hlog.getLast?_of_unresolvable⟩

end PreferenceInjector
