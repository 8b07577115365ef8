import PreferenceInjector.Proofs.Output.Rollback

/-!
# The first file that cannot be written

The source files of a plan are written in turn until one cannot be written, and everything that is
done afterwards depends on the files before that one only. Several files of a plan may have one
path: such a file is written again and again, taken away once, and then not found. All other files
are as they were before the first write, at the places of the later files too.
-/

namespace PreferenceInjector

open LawfulDisk

variable {σ : Type}

/-- Of files that are removed only those that stay are reported. -/
theorem exists_of_mem_removeAll [Disk σ] {disk : σ} {paths : List String} {event : Event}
    (h : event ∈ (removeAll disk paths).2) :
    ∃ path ∈ paths, ∃ fault, event = .removeFailed path fault := by
  induction paths generalizing disk with
  | nil => cases h
  | cons path paths ih =>
    rw [removeAll] at h
    cases hremove : Disk.remove disk path with
    | ok removed =>
      rw [hremove] at h
      obtain ⟨other, hother, hevent⟩ := ih h
      exact ⟨other, List.mem_cons_of_mem _ hother, hevent⟩
    | error fault =>
      rw [hremove] at h
      rcases List.mem_cons.mp h with rfl | h
      · exact ⟨path, List.mem_cons_self, fault, rfl⟩
      · obtain ⟨other, hother, hevent⟩ := ih h
        exact ⟨other, List.mem_cons_of_mem _ hother, hevent⟩

variable [LawfulDisk σ] {disk after : σ} {sources : List (String × String)} {path text : String}
  {fault : Fault}

/-- What a plan leaves behind whose first fault is at a path: the fault as its result, no file under
the paths before, all other files as they were, and a report of what was tried. -/
structure UndoneAfter (disk : σ) (earlier : List String) (path : String) (fault : Fault)
    (result : σ × Reported (List String)) : Prop where
  outcome : result.2.outcome = .error (.file fault)
  gone : ∀ other ∈ earlier, content? result.1 (leadsTo disk other) = none
  kept : ∀ place ∉ earlier.map (leadsTo disk), content? result.1 place = content? disk place
  reported : ∃ stayed, result.2.events = earlier.map .wrote ++ .writeFailed path fault :: stayed ∧
    ∀ event ∈ stayed, ∃ other ∈ earlier, ∃ reason, event = .removeFailed other reason

/-- A write of several files is undone after its first fault. -/
theorem FaultsAfter.undoneAfter (h : FaultsAfter disk sources path text fault after)
    (later : List (String × String)) :
    UndoneAfter disk (sources.map (·.1)) path fault
      (writeAll disk [] (sources ++ (path, text) :: later)) := by
  have hleft := h.content?_removeAll (List.forall_mem_nil _)
  rw [h.writeAll_eq later]
  rw [List.nil_append] at hleft ⊢
  refine ⟨rfl, ?_, ?_, (removeAll after (sources.map (·.1))).2, ?_, ?_⟩
  · intro other hother
    rw [hleft, if_pos (List.mem_map_of_mem hother)]
  · intro place hplace
    rw [hleft, if_neg hplace]
  · rw [List.map_map]
    rfl
  · exact fun _ => exists_of_mem_removeAll

/-- The source files of some injectors can be written in turn, but that of the next one cannot. -/
def FailsAt (disk : σ) (earlier : List Injector) (failing : Injector) (outDir : String)
    (options : CompilationUnit.Options) (fault : Fault) : Prop :=
  ∃ after, FaultsAfter disk (sourcesOf earlier outDir options)
    (CompilationUnit.sourcePath outDir failing) (CompilationUnit.render failing options) fault after

/-- A plan that is not written has a first injector whose source file cannot be written. -/
theorem exists_failsAt_of_error (disk : σ) (injectors : List Injector) (outDir : String)
    (options : CompilationUnit.Options) {failure : Failure}
    (h : (writePlan disk injectors outDir options).2.outcome = .error failure) :
    ∃ earlier failing later fault, injectors = earlier ++ failing :: later ∧
      FailsAt disk earlier failing outDir options fault := by
  obtain ⟨earlier, path, text, later, fault, after, hsplit, hfault⟩ :=
    exists_faultsAfter_of_writeAll h
  obtain ⟨before, behind, rfl, rfl, hbehind⟩ := List.map_eq_append_iff.mp hsplit
  obtain ⟨failing, rest, rfl, hfailing, rfl⟩ := List.map_eq_cons_iff.mp hbehind
  cases hfailing
  exact ⟨before, failing, rest, fault, rfl, after, hfault⟩

/-- A plan whose first fault is at some injector is undone: no file is left under the paths of the
injectors before it, and all other files are as they were. The injectors behind it make no
difference, neither to the result nor to the disk. -/
theorem writePlan_undoneAfter (disk : σ) (earlier : List Injector) (failing : Injector)
    (later : List Injector) (outDir : String) (options : CompilationUnit.Options) (fault : Fault)
    (h : FailsAt disk earlier failing outDir options fault) :
    UndoneAfter disk (earlier.map (CompilationUnit.sourcePath outDir))
        (CompilationUnit.sourcePath outDir failing) fault
        (writePlan disk (earlier ++ failing :: later) outDir options) ∧
      ∀ others, writePlan disk (earlier ++ failing :: others) outDir options =
        writePlan disk (earlier ++ failing :: later) outDir options := by
  obtain ⟨after, hfault⟩ := h
  have hsplit : ∀ others, writePlan disk (earlier ++ failing :: others) outDir options =
      writeAll disk [] (sourcesOf earlier outDir options ++
        (CompilationUnit.sourcePath outDir failing, CompilationUnit.render failing options) ::
          sourcesOf others outDir options) := by
    intro others
    rw [writePlan, sourcesOf, List.map_append, List.map_cons]
    rfl
  have hpaths : earlier.map (CompilationUnit.sourcePath outDir) =
      (sourcesOf earlier outDir options).map (·.1) := by
    rw [sourcesOf, List.map_map]
    rfl
  constructor
  · rw [hsplit, hpaths]
    exact hfault.undoneAfter _
  · intro others
    rw [hsplit, hsplit, hfault.writeAll_eq, hfault.writeAll_eq]

/-- Two injectors with one path, at which a file stands already, are undone after a fault at the
third. -/
theorem writePlan_undoneAfter_shared :
    FailsAt earlierOutput [bareInjector "app" "Baz", bareInjector "app" "Baz"]
        (bareInjector "com" "Qux") "out" {} .alreadyExists ∧
      UndoneAfter earlierOutput ["out/app/Baz_Injector.java", "out/app/Baz_Injector.java"]
        "out/com/Qux_Injector.java" .alreadyExists
        (writePlan earlierOutput ([bareInjector "app" "Baz", bareInjector "app" "Baz"] ++
          [bareInjector "com" "Qux", bareInjector "org" "Zip"]) "out" {}) := by
  have hfails : FailsAt earlierOutput [bareInjector "app" "Baz", bareInjector "app" "Baz"]
      (bareInjector "com" "Qux") "out" {} .alreadyExists := by
    refine ⟨_, _, .cons (Prod.ext rfl ?_) (.cons (Prod.ext rfl ?_) (.nil _)), Prod.ext rfl ?_⟩
    · decide +kernel
    · decide +kernel
    · decide +kernel
  have hundone := (writePlan_undoneAfter earlierOutput
    [bareInjector "app" "Baz", bareInjector "app" "Baz"] (bareInjector "com" "Qux")
    [bareInjector "org" "Zip"] "out" {} .alreadyExists hfails).1
  exact ⟨hfails, hundone⟩

end PreferenceInjector
