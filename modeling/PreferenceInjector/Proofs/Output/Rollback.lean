import PreferenceInjector.Proofs.Output.Written

/-!
# Failed writes

What is left when a source file of a plan cannot be written. The files written before it are taken
away again, so nothing new is left behind, but nothing comes back either: what a written file has
replaced is lost. A failed write leaves the files as they were exactly when no file that it wrote
stood in the place of an earlier one.
-/

namespace PreferenceInjector

open LawfulDisk

/-- The paths that are reported as written, in order. -/
def writtenPaths (events : List Event) : List String :=
  events.filterMap fun
    | .wrote path => some path
    | _ => none

variable {σ : Type} [LawfulDisk σ]

/-- Reports are read one after the other. -/
theorem writtenPaths_append (first second : List Event) :
    writtenPaths (first ++ second) = writtenPaths first ++ writtenPaths second :=
  List.filterMap_append

/-- Each report of a written file is read. -/
theorem writtenPaths_wrote (sources : List (String × String)) :
    writtenPaths (sources.map (.wrote ·.1)) = sources.map (·.1) := by
  rw [writtenPaths, List.filterMap_map]
  exact congrFun List.filterMap_eq_map' sources

/-- Taking files away is not reported as writing. -/
theorem writtenPaths_removeAll (disk : σ) (paths : List String) :
    writtenPaths (removeAll disk paths).2 = [] := by
  induction paths generalizing disk with
  | nil => rfl
  | cons path paths ih =>
    rw [removeAll]
    cases Disk.remove disk path with
    | ok removed => exact ih removed
    | error fault => exact ih disk

/-- Of the files under written paths none is left, and all other files are. -/
theorem content?_removeAll {disk : σ} {paths : List String}
    (h : ∀ path ∈ paths, Written disk path) (place : Place) :
    content? (removeAll disk paths).1 place =
      if place ∈ paths.map (leadsTo disk) then none else content? disk place := by
  induction paths generalizing disk with
  | nil => simp [removeAll]
  | cons path paths ih =>
    obtain ⟨hpath, hpaths⟩ := List.forall_mem_cons.mp h
    rw [removeAll]
    cases hremove : Disk.remove disk path with
    | ok removed =>
      have hfollows := follows_remove hremove
      have hgone : content? removed = Function.update (content? disk) (leadsTo disk path) none :=
        content?_remove disk path removed hremove
      change content? (removeAll removed paths).1 place = _
      rw [ih fun other hother => hfollows.written other (hpaths other hother), hfollows.leadsTo,
        hgone]
      by_cases hplace : place = leadsTo disk path
      · simp [hplace]
      · simp [hplace]
    | error fault =>
      -- Only where the file is gone already can it not be removed.
      have hgone : content? disk (leadsTo disk path) = none := by
        by_contra hfile
        obtain ⟨removed, hremoved⟩ := exists_remove disk path hpath hfile
        cases hremove.symm.trans hremoved
      change content? (removeAll disk paths).1 place = _
      rw [ih hpaths]
      by_cases hplace : place = leadsTo disk path
      · simp [hplace, hgone]
      · simp [hplace]

/-- Of the files before a fault none is left when they are removed with others that were written,
and all other files are as before them. -/
theorem FaultsAfter.content?_removeAll {disk after : σ} {written : List String}
    {sources : List (String × String)} {path text : String} {fault : Fault}
    (h : FaultsAfter disk sources path text fault after)
    (hwritten : ∀ other ∈ written, Written disk other) (place : Place) :
    content? (removeAll after (written ++ sources.map (·.1))).1 place =
      if place ∈ (written ++ sources.map (·.1)).map (leadsTo disk) then none
      else content? disk place := by
  obtain ⟨hfollows, hsources, helsewhere⟩ := h.left
  have hall : ∀ other ∈ written ++ sources.map (·.1), Written after other := by
    intro other hother
    rcases List.mem_append.mp hother with hother | hother
    · exact hfollows.written other (hwritten other hother)
    · obtain ⟨source, hsource, rfl⟩ := List.mem_map.mp hother
      exact hsources source hsource
  rw [PreferenceInjector.content?_removeAll hall, hfollows.leadsTo]
  split
  · rfl
  · next hplace =>
    -- Outside the removed paths nothing was written.
    have hother : place ∉ sources.map (leadsTo disk ·.1) := by
      intro hmem
      rw [List.map_append, List.map_map] at hplace
      exact hplace (List.mem_append_right _ hmem)
    exact helsewhere place hother

/-- What a failed write leaves behind: no file under a path that was written, earlier or as
reported, and all other files as they were. The paths reported as written are those before the
failed one. -/
structure RolledBack (disk : σ) (written paths : List String) (events : List Event) (after : σ) :
    Prop where
  reported : ∃ failed later, paths = writtenPaths events ++ failed :: later
  files : ∀ place, content? after place =
    if place ∈ (written ++ writtenPaths events).map (leadsTo disk) then none
    else content? disk place

/-- A write of several files that fails is rolled back. -/
theorem rolledBack_of_writeAll {disk : σ} {written : List String}
    {sources : List (String × String)} {failure : Failure}
    (hwritten : ∀ path ∈ written, Written disk path)
    (h : (writeAll disk written sources).2.outcome = .error failure) :
    RolledBack disk written (sources.map (·.1)) (writeAll disk written sources).2.events
      (writeAll disk written sources).1 := by
  obtain ⟨earlier, path, text, later, fault, after, rfl, hfault⟩ :=
    exists_faultsAfter_of_writeAll h
  have hreported : ∀ removed, writtenPaths (earlier.map (.wrote ·.1) ++
      .writeFailed path fault :: (removeAll after removed).2) = earlier.map (·.1) := by
    intro removed
    have hremoved : writtenPaths (.writeFailed path fault :: (removeAll after removed).2) = [] :=
      writtenPaths_removeAll after removed
    rw [writtenPaths_append, hremoved, List.append_nil, writtenPaths_wrote]
  rw [hfault.writeAll_eq]
  refine ⟨⟨path, later.map (·.1), by rw [hreported, List.map_append, List.map_cons]⟩, ?_⟩
  intro place
  rw [hreported]
  exact hfault.content?_removeAll hwritten place

/-- A failed write leaves the files as they were exactly when none of the files that it has written
stood in the place of an earlier one. -/
theorem failed_write_leaves_files_iff (disk : σ) (injectors : List Injector) (outDir : String)
    (options : CompilationUnit.Options) {failure : Failure}
    (h : (writePlan disk injectors outDir options).2.outcome = .error failure) :
    (∃ failed later, (sourcesOf injectors outDir options).map (·.1) =
      writtenPaths (writePlan disk injectors outDir options).2.events ++ failed :: later) ∧
    ((∀ place, content? (writePlan disk injectors outDir options).1 place = content? disk place) ↔
      ∀ path ∈ writtenPaths (writePlan disk injectors outDir options).2.events,
        content? disk (leadsTo disk path) = none) := by
  have hrolled : RolledBack disk [] ((sourcesOf injectors outDir options).map (·.1))
      (writePlan disk injectors outDir options).2.events
      (writePlan disk injectors outDir options).1 :=
    rolledBack_of_writeAll (List.forall_mem_nil _) h
  obtain ⟨hreported, hfiles⟩ := hrolled
  rw [List.nil_append] at hfiles
  refine ⟨hreported, ?_⟩
  constructor
  · intro hsame path hpath
    rw [← hsame, hfiles, if_pos (List.mem_map_of_mem hpath)]
  · intro hnew place
    rw [hfiles]
    split
    · next hplace =>
      obtain ⟨path, hpath, rfl⟩ := List.mem_map.mp hplace
      exact (hnew path hpath).symm
    · rfl

/-! ### A failed write over earlier output -/

/-- An output directory in which a file stands in the way of a package, beside earlier output. -/
def blockedOutput (earlier : List (String × Node)) : FileTree where
  root := .dir [("out", .dir (("com", .file .empty) :: earlier))]

/-- An injector without assignments, in the package of its class. -/
def bareInjector (package name : String) : Injector :=
  ⟨injectorName name, package, ⟨package, name⟩, ⟨package, "PreferenceComponent_Foo"⟩, []⟩

/-- Two injectors, the second one in the package that has no directory. -/
def blockedPlan : List Injector := [bareInjector "app" "Baz", bareInjector "com" "Qux"]

/-- Without earlier output, a failed write leaves the files as they were. -/
theorem failed_write_leaves_files_iff_fresh :
    (writePlan (blockedOutput []) blockedPlan "out" {}).2.outcome =
      .error (.file .alreadyExists) ∧
    ∀ place, content? (writePlan (blockedOutput []) blockedPlan "out" {}).1 place =
      content? (blockedOutput []) place := by
  have hfails : (writePlan (blockedOutput []) blockedPlan "out" {}).2.outcome =
      .error (.file .alreadyExists) := by decide +kernel
  have hnew : ∀ path ∈ writtenPaths (writePlan (blockedOutput []) blockedPlan "out" {}).2.events,
      content? (blockedOutput []) (leadsTo (blockedOutput []) path) = none := by decide +kernel
  exact ⟨hfails, (failed_write_leaves_files_iff _ _ _ _ hfails).2.mpr hnew⟩

/-- The output of an earlier pass, in the package that is written first. -/
def earlierOutput : FileTree :=
  blockedOutput [("app", .dir [("Baz_Injector.java", .file .empty)])]

/-- A failed write can lose an earlier file: one that it has replaced is taken away. -/
theorem failed_write_loses_file :
    ¬ ∀ (tree : FileTree) injectors outDir options failure,
      (writePlan tree injectors outDir options).2.outcome = .error failure →
        ∀ place, content? (writePlan tree injectors outDir options).1 place =
          content? tree place := by
  intro h
  have hfails : (writePlan earlierOutput blockedPlan "out" {}).2.outcome =
      .error (.file .alreadyExists) := by decide +kernel
  have hearlier : content? earlierOutput ["out", "app", "Baz_Injector.java"] = some .empty := rfl
  have hgone : content? (writePlan earlierOutput blockedPlan "out" {}).1
      ["out", "app", "Baz_Injector.java"] = none := by decide +kernel
  have hsame := h _ _ _ _ _ hfails ["out", "app", "Baz_Injector.java"]
  cases hearlier.symm.trans (hsame.symm.trans hgone)

end PreferenceInjector
