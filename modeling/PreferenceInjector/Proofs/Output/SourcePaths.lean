import PreferenceInjector.CompilationUnit
import PreferenceInjector.Proofs.FileTree.PathTexts
import PreferenceInjector.Proofs.Generation.Comments

/-!
# Paths of generated files

Where the source files of a plan lie. The names in parsed files are identifiers, so below the output
directory a path has one plain segment for each identifier of the package of the class, and the file
behind them. Files of different classes lie at different places, and since a file name holds a dot
and an identifier does not, no file stands where another one needs a directory.
-/

namespace PreferenceInjector

open Declaration CompilationUnit

/-! ### Classes of parsed files -/

/-- The package of a class is made of some identifiers, and its name is one. -/
structure Consumer.IsNamed (consumer : Consumer) (packages : List String) : Prop where
  package : consumer.package = ".".intercalate packages
  packages : ∀ name ∈ packages, IsSimple name
  name : IsSimple consumer.name

/-- All blocks of a document lie in its package. -/
theorem Declaration.ItemsDeclare.inPackage {package : String} {items : List (Gap × ItemTree)}
    {entries : List Entry} {consumers : List Consumer}
    (h : ItemsDeclare package items entries consumers) :
    ∀ consumer ∈ consumers, consumer.package = package := by
  induction h with
  | nil => simp
  | component _ _ ih => exact ih
  | consumer htree _ ih => exact List.forall_mem_cons.mpr ⟨htree.inPackage, ih⟩

/-- Every class of a parsed file is named by identifiers. -/
theorem Declaration.File.exists_isNamed {path text : String} {file : File}
    (h : (File.ofText path text).outcome = .ok file) {consumer : Consumer}
    (hmem : consumer ∈ file.classes) : ∃ packages, consumer.IsNamed packages := by
  obtain ⟨document, hdocument, hfile⟩ := File.exists_of_ofText h
  obtain ⟨hformed, -⟩ := Document.of_ofText? hdocument
  have hdeclares := hformed.declares hfile
  have hlegal := hdeclares.namesAreLegal hformed
  have hinPackage := hdeclares.items.inPackage consumer hmem
  have hname := (hlegal.consumers consumer hmem).1
  rcases hlegal.package with hnone | ⟨dotted, hdotted, hpackage⟩
  · exact ⟨[], by rw [hinPackage, hnone, String.intercalate_nil], by simp, hname⟩
  · obtain ⟨names, hnames, hsimple⟩ := hdotted.exists_names
    exact ⟨names, by rw [hinPackage, hpackage]; exact hnames, hsimple, hname⟩

/-- Every class of parsed files is named by identifiers. -/
theorem exists_isNamed {sources : List (String × String)} {files : List File}
    (h : (parseAll sources).outcome = .ok files) {consumer : Consumer}
    (hmem : consumer ∈ consumersOf files) : ∃ packages, consumer.IsNamed packages := by
  obtain ⟨file, hfile, hconsumer⟩ := List.mem_flatMap.mp hmem
  rw [parseAll, Reported.outcome_forEach_eq_ok] at h
  obtain ⟨⟨path, text⟩, -, hparsed⟩ := exists_of_forall₂_mem h hfile
  exact File.exists_isNamed hparsed hconsumer

/-! ### Segments -/

variable {name : String}

/-- An identifier is a plain name. -/
theorem Declaration.IsSimple.isPlain (h : IsSimple name) : IsPlain name where
  notEmpty := h.ne_empty
  notHere := by
    rintro rfl
    exact h.notMem (c := '.') (by decide) (by decide)
  notUp := by
    rintro rfl
    exact h.notMem (c := '.') (by decide) (by decide)
  noSlash := h.notMem (by decide)

/-- The name of the source file of an injector is a plain name. -/
theorem Declaration.IsSimple.isPlain_injectorFile (h : IsSimple name) :
    IsPlain (name ++ "_Injector.java") := by
  have hletter : 'j' ∈ (name ++ "_Injector.java").toList := by simp
  have hslash : '/' ∉ name.toList := h.notMem (by decide)
  refine ⟨?_, ?_, ?_, by simp [hslash]⟩
  all_goals
    intro heq
    rw [heq] at hletter
    exact absurd hletter (by decide)

/-- The name of the source file of an injector is no identifier. -/
theorem Declaration.not_isSimple_injectorFile (name : String) :
    ¬ IsSimple (name ++ "_Injector.java") :=
  fun h => h.notMem (c := '.') (by decide) (by simp)

namespace Consumer.IsNamed

variable {consumer other : Consumer} {packages others : List String}

/-- The segments below the output directory are plain names. -/
theorem isPlain (h : consumer.IsNamed packages) :
    ∀ segment ∈ packages ++ [consumer.name ++ "_Injector.java"], IsPlain segment := by
  intro segment hsegment
  rcases List.mem_append.mp hsegment with hpackage | hfile
  · exact (h.packages segment hpackage).isPlain
  · rw [List.mem_singleton.mp hfile]
    exact h.name.isPlain_injectorFile

/-- The identifiers of a package are its parts between the dots. -/
theorem packages_eq (h : consumer.IsNamed packages) :
    (if consumer.package.isEmpty then [] else splitAt '.' consumer.package) = packages := by
  by_cases hnone : packages = []
  · simp [h.package, hnone]
  · have hsplit : splitAt '.' consumer.package = packages := by
      rw [h.package]
      exact splitAt_intercalate hnone fun name hname => (h.packages name hname).notMem (by decide)
    have hfilled : consumer.package ≠ "" := by
      intro hempty
      rw [hempty] at hsplit
      have hpart : "" ∈ packages := by simp [← hsplit, splitAt, pieces]
      exact (h.packages "" hpart).ne_empty rfl
    simp [hfilled, hsplit]

/-- The path of a source file is joined out of the segments below the output directory. -/
theorem sourcePath_eq (h : consumer.IsNamed packages) {component : Component}
    {injector : Injector} (hwires : component.Wires consumer injector) (outDir : String) :
    sourcePath outDir injector =
      (packages ++ [consumer.name ++ "_Injector.java"]).foldl joinPath outDir := by
  have hfile : consumer.name ++ "_Injector" ++ ".java" = consumer.name ++ "_Injector.java" := by
    rw [String.append_assoc]
    rfl
  rw [sourcePath, hwires.inPackage, hwires.name, h.packages_eq, hfile, List.foldl_append,
    List.foldl_cons, List.foldl_nil]

/-- Classes with source files one of which stands at the other or on the way to it have the same
name. -/
theorem qualified_eq_of_prefix (h : consumer.IsNamed packages) (h' : other.IsNamed others)
    (hfiles : packages ++ [consumer.name ++ "_Injector.java"] <+:
      others ++ [other.name ++ "_Injector.java"]) :
    consumer.qualified = other.qualified := by
  rcases List.prefix_concat_iff.mp hfiles with hsame | hway
  · obtain ⟨hpackages, hfile⟩ := List.append_inj' hsame rfl
    have hname : consumer.name = other.name :=
      (String.append_left_inj _).mp (List.singleton_inj.mp hfile)
    rw [Consumer.qualified, Consumer.qualified, h.package, h'.package, hpackages, hname]
  · -- A directory on the way is named by an identifier of the package.
    have hmem : consumer.name ++ "_Injector.java" ∈ others := hway.subset (by simp)
    exact (not_isSimple_injectorFile consumer.name (h'.packages _ hmem)).elim

end Consumer.IsNamed

/-! ### Source files -/

/-- The path is that of the source file of an injector for the class: the output directory, then the
identifiers of the package, then the file. -/
def Consumer.IsWrittenTo (consumer : Consumer) (outDir path : String) : Prop :=
  ∃ packages, consumer.IsNamed packages ∧
    LiesBelow outDir (packages ++ [consumer.name ++ "_Injector.java"]) path

/-- The source file of an injector of a named class is written below the output directory. -/
theorem Consumer.IsNamed.isWrittenTo {consumer : Consumer} {packages : List String}
    (h : consumer.IsNamed packages) {component : Component} {injector : Injector}
    (hwires : component.Wires consumer injector) (outDir : String) :
    consumer.IsWrittenTo outDir (sourcePath outDir injector) := by
  refine ⟨packages, h, ?_⟩
  rw [h.sourcePath_eq hwires]
  exact liesBelow_foldl_joinPath h.isPlain (by simp) outDir

/-- Source files of different classes are apart. -/
theorem Consumer.IsWrittenTo.areApart {consumer other : Consumer} {outDir path path' : String}
    (h : consumer.IsWrittenTo outDir path) (h' : other.IsWrittenTo outDir path')
    (hne : consumer.qualified ≠ other.qualified) : AreApart path path' := by
  obtain ⟨packages, hnamed, hbelow⟩ := h
  obtain ⟨others, hnamed', hbelow'⟩ := h'
  apply hbelow.areApart hbelow'
  · intro hfiles
    exact hne (hnamed.qualified_eq_of_prefix hnamed' hfiles)
  · intro hfiles
    exact hne (hnamed'.qualified_eq_of_prefix hnamed hfiles).symm

section Plan

variable {sources : List (String × String)} {files : List File} {plan : List Injector}

/-- The injector that answers a request is written to the source file of the requested class. -/
theorem Request.IsAnswered.exists_isWrittenTo (hparsed : (parseAll sources).outcome = .ok files)
    {request : Request} {injector : Injector} (h : request.IsAnswered files injector)
    (outDir : String) :
    ∃ consumer ∈ consumersOf files, consumer.qualified = request.target ∧
      injector.parameter = consumer.type ∧
      consumer.IsWrittenTo outDir (sourcePath outDir injector) := by
  obtain ⟨consumer, hmem, hname, hwires⟩ := h
  obtain ⟨packages, hnamed⟩ := exists_isNamed hparsed hmem
  exact ⟨consumer, hmem, hname, hwires.parameter, hnamed.isWrittenTo hwires outDir⟩

/-- Each injector of a plan is written to the source file of its class. -/
theorem exists_isWrittenTo_of_generate (hparsed : (parseAll sources).outcome = .ok files)
    (hplan : (generate files).outcome = .ok plan) (outDir : String) {injector : Injector}
    (hmem : injector ∈ plan) :
    ∃ consumer ∈ consumersOf files, injector.parameter = consumer.type ∧
      consumer.IsWrittenTo outDir (sourcePath outDir injector) := by
  obtain ⟨-, -, hanswers⟩ := generate_eq_ok.mp hplan
  obtain ⟨request, -, hanswered⟩ := exists_of_forall₂_mem hanswers hmem
  obtain ⟨consumer, hconsumer, -, hparameter, hpath⟩ :=
    hanswered.exists_isWrittenTo hparsed outDir
  exact ⟨consumer, hconsumer, hparameter, hpath⟩

/-- The source files of a plan are apart, since no class is requested twice. -/
theorem areApart_of_generate (hparsed : (parseAll sources).outcome = .ok files)
    (hplan : (generate files).outcome = .ok plan) (outDir : String) :
    (plan.map (sourcePath outDir)).Pairwise AreApart := by
  obtain ⟨-, honce, hanswers⟩ := generate_eq_ok.mp hplan
  rw [List.pairwise_map]
  apply pairwise_of_forall₂ hanswers (List.pairwise_map.mp honce)
  intro request request' injector injector' hanswered hanswered' htargets
  obtain ⟨consumer, -, hname, -, hpath⟩ := hanswered.exists_isWrittenTo hparsed outDir
  obtain ⟨consumer', -, hname', -, hpath'⟩ := hanswered'.exists_isWrittenTo hparsed outDir
  apply hpath.areApart hpath'
  rw [hname, hname']
  exact htargets

end Plan

/-- The source file of each injector of a plan lies below the output directory, at the identifiers
of the package of the injected class and a file named after the class, and the source files of a
plan are apart: no two are one, and none is on the way to another. -/
theorem sourcePaths_spec {sources : List (String × String)} {files : List File}
    {plan : List Injector} (hparsed : (parseAll sources).outcome = .ok files)
    (hplan : (generate files).outcome = .ok plan) (outDir : String) :
    (∀ injector ∈ plan, ∃ consumer ∈ consumersOf files, injector.parameter = consumer.type ∧
      consumer.IsWrittenTo outDir (sourcePath outDir injector)) ∧
    (plan.map (sourcePath outDir)).Nodup ∧ (plan.map (sourcePath outDir)).Pairwise AreApart := by
  have hapart := areApart_of_generate hparsed hplan outDir
  refine ⟨?_, hapart.imp AreApart.ne, hapart⟩
  intro injector hinjector
  exact exists_isWrittenTo_of_generate hparsed hplan outDir hinjector

/-- A name of one letter is visible. -/
theorem isVisible_letter : isVisible "C" = true := by decide

/-- Every wrapper of none is named as one. -/
theorem isWrapperName_of_mem_nil : ∀ name ∈ ([] : List String), isWrapperName name = true := by
  simp

/-- A component that injects two classes of its package. -/
def packagedSource : String := "package app.ui;component C{inject K,L;}class K{}class L{}"

/-- The file of the source. -/
def packagedFile : File where
  path := "a.prefs"
  package := "app.ui"
  components := [{
    component := {
      package := "app.ui", className := "C", wrappers := [], visible := isVisible_letter
      nodup := List.nodup_nil, wrapperNames := isWrapperName_of_mem_nil }
    injects := ["app.ui.K", "app.ui.L"] }]
  classes := [⟨"app.ui", "K", []⟩, ⟨"app.ui", "L", []⟩]

/-- The source files of the two injectors stand side by side. -/
theorem sourcePaths_spec_sample :
    (parseAll [("a.prefs", packagedSource)]).outcome = .ok [packagedFile] ∧
    ∃ plan, (generate [packagedFile]).outcome = .ok plan ∧
      plan.map (sourcePath "/out") =
        ["/out/app/ui/K_Injector.java", "/out/app/ui/L_Injector.java"] ∧
      (∀ injector ∈ plan, ∃ consumer ∈ consumersOf [packagedFile],
        injector.parameter = consumer.type ∧
          consumer.IsWrittenTo "/out" (sourcePath "/out" injector)) ∧
      (plan.map (sourcePath "/out")).Nodup ∧
      (plan.map (sourcePath "/out")).Pairwise AreApart := by
  have hfile : (File.ofText "a.prefs" packagedSource).outcome = .ok packagedFile := by
    decide +kernel
  have hparsed : (parseAll [("a.prefs", packagedSource)]).outcome = .ok [packagedFile] := by
    rw [parseAll, Reported.outcome_forEach_eq_ok]
    exact .cons hfile .nil
  have hplan : (generate [packagedFile]).outcome = .ok [
      ⟨"K_Injector", "app.ui", ⟨"app.ui", "K"⟩, ⟨"app.ui", "PreferenceComponent_C"⟩, []⟩,
      ⟨"L_Injector", "app.ui", ⟨"app.ui", "L"⟩, ⟨"app.ui", "PreferenceComponent_C"⟩, []⟩] := by
    decide +kernel
  exact ⟨hparsed, _, hplan, by decide +kernel, sourcePaths_spec hparsed hplan "/out"⟩

end PreferenceInjector
