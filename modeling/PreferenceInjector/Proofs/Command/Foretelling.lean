import PreferenceInjector.Proofs.Command.Planning
import PreferenceInjector.Proofs.FileTree.Reading
import PreferenceInjector.Proofs.Output.Written
import PreferenceInjector.Proofs.Settings.Loading

/-!
# Checking before generating

What `check` tells about `generate`. Both make the same plan of the same declarations, so `check`
fails exactly when `generate` fails without an attempt to write, with the same failure and the same
reports. When `generate` succeeds, the files that it leaves are those of the plan that `check`
shows.
-/

namespace PreferenceInjector.Command

variable {tree : FileTree} {settings : Settings} {surroundings : Settings.Surroundings}
  {input extension output : Option String} {json : Bool}

/-! ### Passes -/

/-- A pass without a plan fails as the making of the plan does, and leaves the files alone. -/
theorem runPass_of_error {failure : Failure} {events : List Event}
    (h : planOf tree settings = ⟨.error failure, events⟩) :
    runPass tree settings = (tree, ⟨.error failure, events⟩) := by
  rw [runPass, h]

/-- A pass with a plan writes it. -/
theorem runPass_of_plan {plan : List Injector} {events : List Event}
    (h : planOf tree settings = ⟨.ok plan, events⟩) :
    runPass tree settings =
      ((writePlan tree plan settings.outputDir settings.java).1, do
        ⟨.ok (), events⟩
        let paths ← (writePlan tree plan settings.outputDir settings.java).2
        Reported.report (.generated paths.length settings.outputDir)
        pure paths) := by
  rw [runPass, h]

/-- A pass that succeeds has a plan, and writes it. -/
theorem exists_plan_of_runPass {paths : List String}
    (h : (runPass tree settings).2.outcome = .ok paths) :
    ∃ plan events, planOf tree settings = ⟨.ok plan, events⟩ ∧
      (writePlan tree plan settings.outputDir settings.java).2.outcome = .ok paths := by
  rcases hplan : planOf tree settings with ⟨failure | plan, events⟩
  · rw [runPass_of_error hplan] at h
    cases h
  · rw [runPass_of_plan hplan] at h
    obtain ⟨⟨⟩, -, h⟩ := Reported.outcome_bind_eq_ok.mp h
    obtain ⟨written, hwritten, h⟩ := Reported.outcome_bind_eq_ok.mp h
    obtain ⟨⟨⟩, -, h⟩ := Reported.outcome_bind_eq_ok.mp h
    cases h
    exact ⟨plan, events, rfl, hwritten⟩

/-- A pass that fails with a plan reports a file that could not be written. -/
theorem exists_isWriting_of_runPass {plan : List Injector} {events : List Event}
    (hplan : planOf tree settings = ⟨.ok plan, events⟩) {failure : Failure}
    (h : (runPass tree settings).2.outcome = .error failure) :
    ∃ event ∈ (runPass tree settings).2.events, event.IsWriting := by
  rw [runPass_of_plan hplan] at h ⊢
  rcases hwritten : (writePlan tree plan settings.outputDir settings.java).2 with
    ⟨fault | paths, reports⟩
  · have hfailed : (writePlan tree plan settings.outputDir settings.java).2.outcome =
        .error fault := by rw [hwritten]
    obtain ⟨path, fault, hmem⟩ := exists_writeFailed_of_writeAll hfailed
    change _ ∈ (writePlan tree plan settings.outputDir settings.java).2.events at hmem
    rw [hwritten] at hmem
    exact ⟨_, List.mem_append_right events hmem, trivial⟩
  · rw [hwritten] at h
    cases h

/-- What a pass leaves behind that writes a plan: the source of each injector under its path, and
all other files as they were. -/
structure HasGenerated (tree : FileTree) (plan : List Injector) (outDir : String)
    (options : CompilationUnit.Options) (paths : List String) (after : FileTree) : Prop where
  written : paths = plan.map (CompilationUnit.sourcePath outDir)
  count : paths.length = plan.length
  cwd : after.cwd = tree.cwd
  sources : ∀ injector ∈ plan, after.read (CompilationUnit.sourcePath outDir injector) =
    .ok (CompilationUnit.render injector options).toUTF8
  elsewhere : ∀ place ∉ paths.map (placeOf tree.cwd), after.content? place = tree.content? place

/-- A plan that is written without a failure is there completely, and nothing else is changed. -/
theorem hasGenerated_of_writePlan {plan : List Injector} {paths : List String} {outDir : String}
    {options : CompilationUnit.Options} (hplan : (planOf tree settings).outcome = .ok plan)
    (h : (writePlan tree plan outDir options).2.outcome = .ok paths) :
    HasGenerated tree plan outDir options paths (writePlan tree plan outDir options).1 := by
  have hpaths : paths = (sourcesOf plan outDir options).map (·.1) := by
    have houtcome := congrArg Reported.outcome (writeAll_eq_of_ok h)
    rw [List.nil_append] at houtcome
    exact Except.ok.inj (h.symm.trans houtcome)
  have hmap : (sourcesOf plan outDir options).map (·.1) =
      plan.map (CompilationUnit.sourcePath outDir) := by
    rw [sourcesOf, List.map_map]
    rfl
  have hwritten : HasWritten tree (sourcesOf plan outDir options)
      (writePlan tree plan outDir options).1 := (writtenInTurn_of_writeAll h).hasWritten
  have hcwd : (writePlan tree plan outDir options).1.cwd = tree.cwd :=
    congrFun hwritten.follows.leadsTo ""
  refine ⟨hpaths.trans hmap, by rw [hpaths, hmap, List.length_map], hcwd, ?_, ?_⟩
  · intro injector hinjector
    have hsource : (CompilationUnit.sourcePath outDir injector,
        CompilationUnit.render injector options) ∈ sourcesOf plan outDir options :=
      List.mem_map_of_mem hinjector
    have htext := hwritten.texts (nodup_places_of_planOf hplan outDir options tree.cwd) _ hsource
    have hwrote := hwritten.written _ hsource
    have hreaches : FileTree.Reaches (writePlan tree plan outDir options).1
        (CompilationUnit.sourcePath outDir injector) := hwrote
    apply hreaches.read
    rw [hcwd]
    exact htext
  · intro place hplace
    apply hwritten.elsewhere
    rw [hpaths, List.map_map] at hplace
    exact hplace

/-! ### Both commands -/

/-- Settings that cannot be loaded are what `check` fails with. -/
theorem check_of_error {error : SettingsError}
    (h : Settings.load tree surroundings = .error error) :
    check tree surroundings input extension json = Reported.fail (.settings error) := by
  rw [check, h]
  exact Reported.ofExcept_error_bind _ _

/-- Settings that cannot be loaded are what `generate` fails with. -/
theorem generate_of_error {error : SettingsError}
    (h : Settings.load tree surroundings = .error error) :
    generate tree surroundings input extension output =
      (tree, Reported.fail (.settings error)) := by
  unfold generate
  rw [h]

/-- With settings that can be loaded, `check` shows the plan. -/
theorem check_of_settings (h : Settings.load tree surroundings = .ok settings) :
    check tree surroundings input extension json =
      planOf tree (overrideInput settings input extension) >>= fun plan =>
        pure (planText json plan) := by
  rw [check, h]
  exact Reported.ofExcept_ok_bind _ _

/-- With settings that can be loaded, `generate` makes a pass. -/
theorem generate_of_settings (h : Settings.load tree surroundings = .ok settings) :
    generate tree surroundings input extension output =
      runPass tree (overrideAll settings input extension output) := by
  unfold generate
  rw [h]

/-- The output directory has no influence on the plan. -/
theorem planOf_overrideAll :
    planOf tree (overrideAll settings input extension output) =
      planOf tree (overrideInput settings input extension) := rfl

/-- Either both commands fail in the same way, without an attempt to write, or both have the plan
that `check` shows. -/
theorem fail_or_plan (tree : FileTree) (surroundings : Settings.Surroundings)
    (input extension output : Option String) (json : Bool) :
    (∃ failure events, (∀ event ∈ events, ¬ event.IsWriting) ∧
      check tree surroundings input extension json = ⟨.error failure, events⟩ ∧
      generate tree surroundings input extension output = (tree, ⟨.error failure, events⟩)) ∨
    ∃ settings plan events, Settings.load tree surroundings = .ok settings ∧
      planOf tree (overrideInput settings input extension) = ⟨.ok plan, events⟩ ∧
      (check tree surroundings input extension json).outcome = .ok (planText json plan) := by
  cases hload : Settings.load tree surroundings with
  | error error =>
    exact .inl ⟨_, [], List.forall_mem_nil _, check_of_error hload, generate_of_error hload⟩
  | ok settings =>
    have hquiet := isQuiet_planOf tree (overrideInput settings input extension)
    rw [check_of_settings hload, generate_of_settings hload]
    rcases hplan : planOf tree (overrideInput settings input extension) with
      ⟨failure | plan, events⟩
    · rw [hplan] at hquiet
      exact .inl ⟨failure, events, hquiet, rfl, runPass_of_error hplan⟩
    · exact .inr ⟨settings, plan, events, rfl, hplan, rfl⟩

/-- `check` fails exactly when `generate` fails before it attempts to write, with the same failure
and the same reports. -/
theorem check_eq_error_iff {failure : Failure} {events : List Event} :
    check tree surroundings input extension json = ⟨.error failure, events⟩ ↔
      (generate tree surroundings input extension output).2 = ⟨.error failure, events⟩ ∧
        ∀ event ∈ events, ¬ event.IsWriting := by
  rcases fail_or_plan tree surroundings input extension output json with
    ⟨fault, reports, hquiet, hcheck, hgenerate⟩ | ⟨settings, plan, reports, hload, hplan, hcheck⟩
  · rw [hcheck, hgenerate]
    constructor
    · intro h
      cases h
      exact ⟨rfl, hquiet⟩
    · intro h
      obtain ⟨hfails, -⟩ := h
      cases hfails
      rfl
  · constructor
    · intro h
      rw [h] at hcheck
      cases hcheck
    · intro h
      obtain ⟨hfails, hquiet⟩ := h
      rw [generate_of_settings hload] at hfails
      obtain ⟨event, hmem, hwriting⟩ := exists_isWriting_of_runPass
        (planOf_overrideAll.trans hplan) (congrArg Reported.outcome hfails)
      rw [hfails] at hmem
      exact (hquiet event hmem hwriting).elim

/-- Where `check` fails, `generate` leaves everything as it is. -/
theorem generate_eq_of_check_error {failure : Failure}
    (h : (check tree surroundings input extension json).outcome = .error failure) :
    (generate tree surroundings input extension output).1 = tree := by
  rcases fail_or_plan tree surroundings input extension output json with
    ⟨fault, reports, -, -, hgenerate⟩ | ⟨settings, plan, reports, -, -, hcheck⟩
  · rw [hgenerate]
  · cases hcheck.symm.trans h

/-- Where `generate` succeeds, it leaves the sources of the plan that `check` shows. -/
theorem exists_hasGenerated {paths : List String}
    (h : (generate tree surroundings input extension output).2.outcome = .ok paths) :
    ∃ settings plan, Settings.load tree surroundings = .ok settings ∧
      (planOf tree (overrideInput settings input extension)).outcome = .ok plan ∧
      (check tree surroundings input extension json).outcome = .ok (planText json plan) ∧
      HasGenerated tree plan (output.getD settings.outputDir) settings.java paths
        (generate tree surroundings input extension output).1 := by
  rcases fail_or_plan tree surroundings input extension output json with
    ⟨failure, events, -, -, hgenerate⟩ | ⟨settings, plan, events, hload, hplan, hcheck⟩
  · rw [hgenerate] at h
    cases h
  · rw [generate_of_settings hload] at h ⊢
    obtain ⟨written, reports, hwritten, hwrites⟩ := exists_plan_of_runPass h
    cases (planOf_overrideAll.trans hplan).symm.trans hwritten
    have hmade : (planOf tree (overrideInput settings input extension)).outcome = .ok plan := by
      rw [hplan]
    rw [runPass_of_plan hwritten]
    exact ⟨settings, plan, hload, hmade, hcheck, hasGenerated_of_writePlan hmade hwrites⟩

/-- `check` leaves the files alone, and foretells `generate`: it fails exactly when `generate` fails
before it attempts to write, with the same failure and reports, and then `generate` leaves
everything as it is. When `generate` succeeds, `check` shows the plan of which `generate` leaves the
sources, and no other file is changed. -/
theorem check_foretells_generate (tree : FileTree) (surroundings : Settings.Surroundings)
    (input extension output : Option String) (json : Bool) :
    (Task.run tree surroundings (.check input extension json)).1 = tree ∧
    (∀ failure events,
      check tree surroundings input extension json = ⟨.error failure, events⟩ ↔
        (generate tree surroundings input extension output).2 = ⟨.error failure, events⟩ ∧
          ∀ event ∈ events, ¬ event.IsWriting) ∧
    (∀ failure, (check tree surroundings input extension json).outcome = .error failure →
      (generate tree surroundings input extension output).1 = tree) ∧
    ∀ paths, (generate tree surroundings input extension output).2.outcome = .ok paths →
      ∃ settings plan, Settings.load tree surroundings = .ok settings ∧
        (planOf tree (overrideInput settings input extension)).outcome = .ok plan ∧
        (check tree surroundings input extension json).outcome = .ok (planText json plan) ∧
        HasGenerated tree plan (output.getD settings.outputDir) settings.java paths
          (generate tree surroundings input extension output).1 :=
  ⟨rfl, fun _ _ => check_eq_error_iff, fun _ => generate_eq_of_check_error,
    fun _ => exists_hasGenerated⟩

/-- A directory with one declaration file. -/
def declaredTree : FileTree where
  root := .dir [("prefs", .dir [("a.prefs",
    .file "package app;component C{inject K;}class K{}".toUTF8)])]

/-- The declared class has its injector generated, as `check` shows it. -/
theorem check_foretells_generate_sample :
    (generate declaredTree ⟨"/", none, []⟩ none none none).2.outcome =
      .ok ["generated/app/K_Injector.java"] ∧
    ∃ settings plan, Settings.load declaredTree ⟨"/", none, []⟩ = .ok settings ∧
      (planOf declaredTree (overrideInput settings none none)).outcome = .ok plan ∧
      (check declaredTree ⟨"/", none, []⟩ none none false).outcome = .ok (planText false plan) ∧
      HasGenerated declaredTree plan settings.outputDir settings.java
        ["generated/app/K_Injector.java"]
        (generate declaredTree ⟨"/", none, []⟩ none none none).1 := by
  have hload : Settings.load declaredTree ⟨"/", none, []⟩ = .ok {} :=
    Settings.loadFrom_of_missing (by decide +kernel) (by decide +kernel)
  have hok : (generate declaredTree ⟨"/", none, []⟩ none none none).2.outcome =
      .ok ["generated/app/K_Injector.java"] := by
    rw [generate_of_settings hload]
    decide +kernel
  obtain ⟨-, -, -, hgenerates⟩ :=
    check_foretells_generate declaredTree ⟨"/", none, []⟩ none none none false
  exact ⟨hok, hgenerates _ hok⟩

end PreferenceInjector.Command
