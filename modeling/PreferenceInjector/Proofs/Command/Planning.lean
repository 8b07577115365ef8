import PreferenceInjector.Command.Run
import PreferenceInjector.Proofs.Output.SourcePaths

/-!
# Making plans

The first part of every pass reads declarations and makes a plan. Nothing that it reports is about
writing, so the reports of a pass tell whether it went further. The plan comes from files that were
parsed, so its source files are apart and lie below the output directory.
-/

namespace PreferenceInjector

open Declaration

/-- An event is about writing a source file, or about taking one away again. -/
def Event.IsWriting (event : Event) : Prop :=
  match event with
  | .wrote .. | .writeFailed .. | .removeFailed .. => True
  | _ => False

namespace Reported

variable {α β : Type}

/-- Nothing about writing is reported. -/
def IsQuiet (reported : Reported α) : Prop := ∀ event ∈ reported.events, ¬ event.IsWriting

@[simp] theorem isQuiet_pure (a : α) : IsQuiet (pure a) := List.forall_mem_nil _

@[simp] theorem isQuiet_fail (failure : Failure) : (fail failure : Reported α).IsQuiet :=
  List.forall_mem_nil _

@[simp] theorem isQuiet_ofExcept (result : Except Failure α) : (ofExcept result).IsQuiet :=
  List.forall_mem_nil _

@[simp] theorem isQuiet_malformed (text : String) : (malformed text : Reported α).IsQuiet :=
  List.forall_mem_singleton.mpr id

@[simp] theorem isQuiet_unresolvable (consumer field type : String) :
    (unresolvable consumer field type : Reported α).IsQuiet :=
  List.forall_mem_singleton.mpr id

/-- A report is quiet when its event is not about writing. -/
theorem isQuiet_report {event : Event} (h : ¬ event.IsWriting) : (report event).IsQuiet :=
  List.forall_mem_singleton.mpr h

/-- One quiet computation after another is quiet. -/
theorem IsQuiet.bind {first : Reported α} {next : α → Reported β} (h : first.IsQuiet)
    (hnext : ∀ a, (next a).IsQuiet) : (first >>= next).IsQuiet := by
  change (Reported.bind first next).IsQuiet
  unfold Reported.bind
  split
  · next a _ => exact List.forall_mem_append.mpr ⟨h, hnext a⟩
  · exact h

/-- A loop of quiet computations is quiet. -/
theorem isQuiet_forEach {step : α → Reported β} (h : ∀ a, (step a).IsQuiet) (elements : List α) :
    (forEach step elements).IsQuiet := by
  induction elements with
  | nil => exact isQuiet_pure []
  | cons a elements ih => exact (h a).bind fun b => ih.bind fun bs => isQuiet_pure (b :: bs)

end Reported

open Reported

/-! ### Reading declarations -/

/-- Reading a declaration file reports nothing about writing. -/
theorem isQuiet_ofText (path text : String) : (File.ofText path text).IsQuiet := by
  have hdeclare : ∀ package name names, (Component.declare package name names).IsQuiet := by
    intro package name names
    unfold Component.declare
    split
    · exact isQuiet_pure _
    · exact isQuiet_malformed _
  rw [File.ofText]
  split
  · next document _ =>
    refine (isQuiet_forEach ?_ _).bind fun components => isQuiet_pure _
    intro tree
    exact (hdeclare _ _ _).bind fun component => isQuiet_pure _
  · exact isQuiet_fail _

/-- Reading all declaration files reports nothing about writing. -/
theorem isQuiet_scanDir (tree : FileTree) (dir extension : String) :
    (scanDir tree dir extension).IsQuiet := by
  have hfile : ∀ path, (scanFile tree path).IsQuiet := by
    intro path
    rw [scanFile]
    split
    · exact isQuiet_ofText path _
    · exact isQuiet_fail _
  rw [scanDir]
  split
  · exact isQuiet_fail _
  · exact (isQuiet_report id).bind fun _ => isQuiet_forEach hfile _

/-- What a scan finds was parsed from texts. -/
theorem exists_sources_of_scanDir {tree : FileTree} {dir extension : String} {files : List File}
    (h : (scanDir tree dir extension).outcome = .ok files) :
    ∃ sources, (parseAll sources).outcome = .ok files := by
  rw [scanDir] at h
  split at h
  · cases h
  · next entries _ =>
    obtain ⟨⟨⟩, -, hfiles⟩ := outcome_bind_eq_ok.mp h
    rw [outcome_forEach_eq_ok] at hfiles
    have hparsed : List.Forall₂ (fun path file => ∃ source : String × String, source.1 = path ∧
        (File.ofText source.1 source.2).outcome = .ok file)
        (declarationPaths dir extension entries) files := by
      apply hfiles.imp
      intro path file hfile
      rw [scanFile] at hfile
      split at hfile
      · next text _ => exact ⟨(path, text), rfl, hfile⟩
      · cases hfile
    obtain ⟨sources, -, hsources⟩ := forall₂_comp.mp hparsed
    exact ⟨sources, outcome_forEach_eq_ok.mpr hsources⟩

/-! ### Resolving -/

/-- Resolving all requests reports nothing about writing. -/
theorem isQuiet_generate (files : List File) : (generate files).IsQuiet := by
  have hfield : ∀ component consumer field,
      (Component.bindField component consumer field).IsQuiet := by
    intro component consumer field
    rw [Component.bindField]
    split
    · exact isQuiet_pure _
    · exact isQuiet_unresolvable _ _ _
  have hinjector : ∀ component consumer, (Registry.injectorFor component consumer).IsQuiet := by
    intro component consumer
    have hbindings : (component.bindAll consumer).IsQuiet :=
      (isQuiet_forEach (hfield component consumer) _).bind fun _ =>
        (isQuiet_report id).bind fun _ => isQuiet_pure _
    exact hbindings.bind fun _ => (isQuiet_report id).bind fun _ => isQuiet_pure _
  have hskipped : ∀ names : List String,
      (discard (forEach (fun name => report (.skipped name)) names)).IsQuiet :=
    fun names => (isQuiet_forEach (fun _ => isQuiet_report id) names).bind fun _ => isQuiet_pure _
  have hregistry : (Registry.ofFiles files).IsQuiet :=
    (isQuiet_ofExcept _).bind fun _ => (isQuiet_report id).bind fun _ => isQuiet_pure _
  refine hregistry.bind fun registry => (isQuiet_ofExcept _).bind fun pairs => ?_
  refine (hskipped _).bind fun _ => isQuiet_forEach ?_ pairs
  rintro ⟨component, consumer⟩
  exact hinjector component consumer

namespace Command

variable {tree : FileTree} {settings : Settings} {plan : List Injector}

/-- Making a plan reports nothing about writing. -/
theorem isQuiet_planOf (tree : FileTree) (settings : Settings) : (planOf tree settings).IsQuiet :=
  (isQuiet_scanDir _ _ _).bind fun files => isQuiet_generate files

/-- A plan is made of parsed files. -/
theorem exists_sources_of_planOf (h : (planOf tree settings).outcome = .ok plan) :
    ∃ sources files, (parseAll sources).outcome = .ok files ∧
      (PreferenceInjector.generate files).outcome = .ok plan := by
  obtain ⟨files, hfiles, hplan⟩ := outcome_bind_eq_ok.mp h
  obtain ⟨sources, hsources⟩ := exists_sources_of_scanDir hfiles
  exact ⟨sources, files, hsources, hplan⟩

/-- The source files of a plan stand at different places. -/
theorem nodup_places_of_planOf (h : (planOf tree settings).outcome = .ok plan) (outDir : String)
    (options : CompilationUnit.Options) (cwd : Place) :
    ((sourcesOf plan outDir options).map (placeOf cwd ·.1)).Nodup := by
  obtain ⟨sources, files, hparsed, hplan⟩ := exists_sources_of_planOf h
  have hapart := areApart_of_generate hparsed hplan outDir
  rw [sourcesOf, List.map_map, List.Nodup, List.pairwise_map]
  rw [List.pairwise_map] at hapart
  apply hapart.imp
  intro injector other hfiles hsame
  apply (hfiles.places cwd).1
  change placeOf cwd _ = placeOf cwd _ at hsame
  rw [hsame]

/-- The source file of each injector of a plan is named after a class. -/
theorem exists_name_of_planOf (h : (planOf tree settings).outcome = .ok plan) (outDir : String)
    {injector : Injector} (hmem : injector ∈ plan) (cwd : Place) :
    ∃ above consumer, placeOf cwd (CompilationUnit.sourcePath outDir injector) =
      above ++ [consumer ++ "_Injector.java"] := by
  obtain ⟨sources, files, hparsed, hplan⟩ := exists_sources_of_planOf h
  obtain ⟨consumer, -, -, packages, -, hbelow⟩ :=
    exists_isWrittenTo_of_generate hparsed hplan outDir hmem
  refine ⟨placeOf cwd outDir ++ packages, consumer.name, ?_⟩
  rw [hbelow.places, List.append_assoc]

end Command

end PreferenceInjector
