import PreferenceInjector.Proofs.Command.Foretelling
import PreferenceInjector.Proofs.FileTree.ScanOrder
import PreferenceInjector.Proofs.Output.Repeating

/-!
# Passes that are made again

A pass does not read what it writes, unless it takes the generated sources for declarations. So a
second pass finds the declarations of the first one, wherever the output directory lies and whatever
is in it, makes the same plan, and writes the files that are there already. What can stand in its
way is a directory that the first pass has made: when it has the extension of declaration files and
lies too deep to be searched, it is taken for one of them, and the second pass fails.
-/

namespace PreferenceInjector.Command

open Declaration
open FileTree (outerTree slashedPath)

variable {tree : FileTree} {settings : Settings} {plan : List Injector} {paths : List String}

/-- The name of a generated file ends in its extension. -/
theorem simpleName_injectorFile (consumer : String) :
    '.' ∈ (consumer ++ "_Injector.java").toList ∧
      simpleName (consumer ++ "_Injector.java") = "java" := by
  refine ⟨by simp, ?_⟩
  have hname : consumer ++ "_Injector.java" =
      String.ofList ((consumer ++ "_Injector").toList ++ '.' :: "java".toList) := by
    simp
  rw [hname, simpleName_append_dot _ (by decide), String.ofList_toList]

/-- No source file of a plan has the extension of declaration files. -/
theorem lacks_of_planOf (hextension : settings.extension ≠ "java")
    (hplan : (planOf tree settings).outcome = .ok plan) (outDir : String)
    (options : CompilationUnit.Options) :
    ∀ source ∈ sourcesOf plan outDir options, tree.Lacks settings.extension source.1 := by
  intro source hsource above name hplace hname
  obtain ⟨injector, hinjector, rfl⟩ := List.mem_map.mp hsource
  obtain ⟨dir, consumer, hfile⟩ := exists_name_of_planOf hplan outDir hinjector tree.cwd
  obtain ⟨-, hlast⟩ := List.append_inj' (hplace.symm.trans hfile) rfl
  rw [List.singleton_inj.mp hlast] at hname
  rw [← (simpleName_of_extension? hname).2, (simpleName_injectorFile consumer).2] at hextension
  exact hextension rfl

/-- No source file of a plan stands where a declaration file is read. -/
theorem place_notMem_of_planOf (hextension : settings.extension ≠ "java")
    (hplan : (planOf tree settings).outcome = .ok plan) (outDir : String)
    (options : CompilationUnit.Options) {entries : List (String × Node)} {path : String}
    {content : ByteArray}
    (hpath : path ∈ declarationPaths settings.inputDir settings.extension entries)
    (hread : tree.read path = .ok content) :
    placeOf tree.cwd path ∉ (sourcesOf plan outDir options).map (placeOf tree.cwd ·.1) := by
  intro hmem
  obtain ⟨source, hsource, hplace⟩ := List.mem_map.mp hmem
  obtain ⟨injector, hinjector, rfl⟩ := List.mem_map.mp hsource
  obtain ⟨dir, consumer, hfile⟩ := exists_name_of_planOf hplan outDir hinjector tree.cwd
  obtain ⟨above, name, hend, hname⟩ := FileTree.exists_extension_of_read hpath hread
  obtain ⟨-, hlast⟩ := List.append_inj' (hend.symm.trans (hplace.symm.trans hfile)) rfl
  obtain ⟨hdot, hjava⟩ := simpleName_injectorFile consumer
  rw [List.singleton_inj.mp hlast] at hname
  exact hextension ((hname hdot).symm.trans hjava)

/-- A pass makes the same plan after it has written it, if no path that it lists then is too
long. -/
theorem planOf_of_written (hextension : settings.extension ≠ "java")
    (hplan : (planOf tree settings).outcome = .ok plan)
    (h : (writePlan tree plan settings.outputDir settings.java).2.outcome = .ok paths)
    (hshort : (writePlan tree plan settings.outputDir settings.java).1.ListsShortPaths
      settings.inputDir settings.extension) :
    planOf (writePlan tree plan settings.outputDir settings.java).1 settings =
      planOf tree settings := by
  have hturn : WrittenInTurn tree (sourcesOf plan settings.outputDir settings.java)
      (writePlan tree plan settings.outputDir settings.java).1 := writtenInTurn_of_writeAll h
  have hscans : FileTree.ScansAs isShort settings.extension tree
      (writePlan tree plan settings.outputDir settings.java).1 :=
    FileTree.scansAs_of_writtenInTurn hturn (lacks_of_planOf hextension hplan _ _)
      (.inl fun _ => id)
  have hwritten := hturn.hasWritten
  obtain ⟨files, hfiles, -⟩ := Reported.outcome_bind_eq_ok.mp hplan
  have hfound := hscans.scanDir hfiles (fun entries path hpath content hread =>
    hwritten.elsewhere _ (place_notMem_of_planOf hextension hplan _ _ hpath hread)) hshort
  rw [planOf, planOf, hfound]

/-- The source file of each injector of a plan lies below the output directory, in directories that
are named without a dot. -/
theorem exists_segments_of_planOf (hplan : (planOf tree settings).outcome = .ok plan)
    (outDir : String) {injector : Injector} (hmem : injector ∈ plan) : ∃ packages file,
      pathSegments (CompilationUnit.sourcePath outDir injector) =
        pathSegments outDir ++ packages ++ [file] ∧ ∀ name ∈ packages, '.' ∉ name.toList := by
  obtain ⟨sources, files, hparsed, hgenerates⟩ := exists_sources_of_planOf hplan
  obtain ⟨consumer, -, -, packages, hnamed, hbelow⟩ :=
    exists_isWrittenTo_of_generate hparsed hgenerates outDir hmem
  refine ⟨packages, consumer.name ++ "_Injector.java", ?_, ?_⟩
  · rw [hbelow.segments, List.append_assoc]
  · exact fun name hname => (hnamed.packages name hname).notMem (by decide)

/-- A pass lists no path that is too long after it has written its plan, if no segment of the output
directory has the extension of declaration files. -/
theorem listsShortPaths_of_written (hextension : settings.extension ≠ "java")
    (hplan : (planOf tree settings).outcome = .ok plan)
    (h : (writePlan tree plan settings.outputDir settings.java).2.outcome = .ok paths)
    (hsegments : ∀ segment ∈ pathSegments settings.outputDir,
      extension? segment ≠ some settings.extension) :
    (writePlan tree plan settings.outputDir settings.java).1.ListsShortPaths settings.inputDir
      settings.extension := by
  have hturn : WrittenInTurn tree (sourcesOf plan settings.outputDir settings.java)
      (writePlan tree plan settings.outputDir settings.java).1 := writtenInTurn_of_writeAll h
  have hdirs : ∀ source ∈ sourcesOf plan settings.outputDir settings.java,
      ∀ segment ∈ (pathSegments source.1).dropLast,
        extension? segment ≠ some settings.extension := by
    intro source hsource segment hsegment hname
    obtain ⟨injector, hinjector, rfl⟩ := List.mem_map.mp hsource
    obtain ⟨packages, file, hpath, hpackages⟩ :=
      exists_segments_of_planOf hplan settings.outputDir hinjector
    rw [hpath, List.dropLast_concat] at hsegment
    rcases List.mem_append.mp hsegment with houtput | hpackage
    · exact hsegments segment houtput hname
    · exact hpackages segment hpackage (simpleName_of_extension? hname).1
  have hscans : FileTree.ScansAs (fun _ => true) settings.extension tree
      (writePlan tree plan settings.outputDir settings.java).1 :=
    FileTree.scansAs_of_writtenInTurn hturn (lacks_of_planOf hextension hplan _ _) (.inr hdirs)
  obtain ⟨files, hfiles, -⟩ := Reported.outcome_bind_eq_ok.mp hplan
  cases hlist : tree.list settings.inputDir with
  | error fault =>
    rw [scanDir, hlist] at hfiles
    cases hfiles
  | ok entries => exact hscans.listsShortPaths hlist (FileTree.listsShortPaths_of_scanDir hfiles)

/-- A pass that has succeeded does the same when it is made again, if no path that it lists then is
too long. -/
theorem runPass_again (hextension : settings.extension ≠ "java")
    (h : (runPass tree settings).2.outcome = .ok paths)
    (hshort : (runPass tree settings).1.ListsShortPaths settings.inputDir settings.extension) :
    runPass (runPass tree settings).1 settings = runPass tree settings := by
  obtain ⟨plan, events, hplan, hwritten⟩ := exists_plan_of_runPass h
  have hmade : (planOf tree settings).outcome = .ok plan := by rw [hplan]
  rw [runPass_of_plan hplan] at hshort
  have hagain : planOf (writePlan tree plan settings.outputDir settings.java).1 settings =
      ⟨.ok plan, events⟩ := (planOf_of_written hextension hmade hwritten hshort).trans hplan
  have hwrite : writePlan (writePlan tree plan settings.outputDir settings.java).1 plan
      settings.outputDir settings.java = writePlan tree plan settings.outputDir settings.java :=
    FileTree.writeAll_again hwritten (nodup_places_of_planOf hmade _ _ _)
  rw [runPass_of_plan hplan]
  rw [runPass_of_plan hagain, hwrite]

/-- A pass that lists a path that is too long fails and leaves everything as it is. -/
theorem runPass_of_long_path
    (h : ¬ tree.ListsShortPaths settings.inputDir settings.extension) :
    ∃ failure events, runPass tree settings = (tree, ⟨.error failure, events⟩) := by
  rcases hplan : planOf tree settings with ⟨failure | plan, events⟩
  · exact ⟨failure, events, runPass_of_error hplan⟩
  · have hmade : (planOf tree settings).outcome = .ok plan := by rw [hplan]
    obtain ⟨files, hfiles, -⟩ := Reported.outcome_bind_eq_ok.mp hmade
    exact (h (FileTree.listsShortPaths_of_scanDir hfiles)).elim

/-- A pass that has succeeded does the same when it is made again, and leaves every file and
directory as it was after the first time, exactly when no path that it lists then is too long.
Otherwise the second pass fails, and leaves everything as the first one did. No path is too long as
long as no segment of the output directory has the extension of declaration files. -/
theorem runPass_again_iff (tree : FileTree) (settings : Settings) {paths : List String}
    (hextension : settings.extension ≠ "java")
    (h : (runPass tree settings).2.outcome = .ok paths) :
    (runPass (runPass tree settings).1 settings = runPass tree settings ↔
      (runPass tree settings).1.ListsShortPaths settings.inputDir settings.extension) ∧
    (¬ (runPass tree settings).1.ListsShortPaths settings.inputDir settings.extension →
      ∃ failure events, runPass (runPass tree settings).1 settings =
        ((runPass tree settings).1, ⟨.error failure, events⟩)) ∧
    ((∀ segment ∈ pathSegments settings.outputDir,
        extension? segment ≠ some settings.extension) →
      (runPass tree settings).1.ListsShortPaths settings.inputDir settings.extension) := by
  refine ⟨⟨fun hsame => ?_, runPass_again hextension h⟩, runPass_of_long_path, ?_⟩
  · by_contra hlong
    obtain ⟨failure, events, hfails⟩ := runPass_of_long_path hlong
    rw [hsame] at hfails
    rw [hfails] at h
    cases h
  · intro hsegments
    obtain ⟨plan, events, hplan, hwritten⟩ := exists_plan_of_runPass h
    rw [runPass_of_plan hplan]
    exact listsShortPaths_of_written hextension (by rw [hplan]) hwritten hsegments

/-- A directory with a declaration file and with an earlier result. -/
def nestedTree : FileTree where
  root := .dir [("prefs", .dir [
    ("app", .dir [("K_Injector.java", .file .empty)]),
    ("a.prefs", .file "package app;component C{inject K;}class K{}".toUTF8)])]

/-- A pass that writes into the directory of the declarations, where an earlier result stands,
replaces it by the new one, finds what it found before, and replaces the new one by the same. -/
theorem runPass_again_nested :
    ({ outputDir := "prefs" } : Settings).extension ≠ "java" ∧
      (runPass nestedTree { outputDir := "prefs" }).2.outcome =
        .ok ["prefs/app/K_Injector.java"] ∧
      nestedTree.readText "prefs/app/K_Injector.java" = .ok "" ∧
      (runPass nestedTree { outputDir := "prefs" }).1.readText "prefs/app/K_Injector.java" =
        .ok ("package app;\n\nimport android.support.annotation.NonNull;\n\n/**\n" ++
          " * Generated by PreferenceRoom. (https://github.com/skydoves/PreferenceRoom).\n */\n" ++
          "public class K_Injector \x7b\n  public K_Injector(@NonNull K injectObject) \x7b\n" ++
          "  \x7d\n\x7d\n") ∧
      runPass (runPass nestedTree { outputDir := "prefs" }).1 { outputDir := "prefs" } =
        runPass nestedTree { outputDir := "prefs" } := by
  have hextension : ({ outputDir := "prefs" } : Settings).extension ≠ "java" := by decide
  have hok : (runPass nestedTree { outputDir := "prefs" }).2.outcome =
      .ok ["prefs/app/K_Injector.java"] := by decide +kernel
  have hsegments : ∀ segment ∈ pathSegments "prefs", extension? segment ≠ some "prefs" := by
    decide +kernel
  obtain ⟨hagain, -, hshort⟩ := runPass_again_iff nestedTree { outputDir := "prefs" } hextension hok
  exact ⟨hextension, hok, by decide +kernel, by decide +kernel, hagain.mpr (hshort hsegments)⟩

/-! ### A directory that is taken for a file -/

/-- What a file declares does not depend on its path. -/
theorem outcome_ofText_of_path {text other path : String} {file : File}
    (h : (File.ofText other text).outcome = .ok file) :
    (File.ofText path text).outcome = .ok { file with path } := by
  rw [File.ofText] at h ⊢
  cases hdocument : Document.ofText? text.toList with
  | none =>
    rw [hdocument] at h
    cases h
  | some document =>
    rw [hdocument] at h
    obtain ⟨components, hcomponents, hfile⟩ := Reported.outcome_bind_eq_ok.mp h
    cases hfile
    exact Reported.outcome_bind_eq_ok.mpr ⟨components, hcomponents, rfl⟩

/-- The bytes of a text are read as the text. -/
theorem fromUTF8?_toUTF8 (text : String) : String.fromUTF8? text.toUTF8 = some text :=
  dif_pos text.isValidUTF8

/-- The plan of a file that is found is the one of its declarations, under whatever path. -/
theorem planOf_of_path (path : String) {name text : String}
    (hdir : tree.list settings.inputDir = .ok [(name, .file text.toUTF8)])
    (hproper : tree.root.HasProperNames)
    (hname : extension? name = some settings.extension)
    (hshort : isShort (joinPath settings.inputDir name) = true)
    (h : (File.ofText path text >>= fun file => PreferenceInjector.generate [file]).outcome =
      .ok plan) : (planOf tree settings).outcome = .ok plan := by
  obtain ⟨hthere, hentries⟩ := FileTree.at?_of_list hproper hdir
  have hfileName : IsFileName name :=
    (Node.entriesHaveProperNames_iff.mp hentries.2 _ List.mem_cons_self).1
  have hcontent : tree.content? (placeOf tree.cwd settings.inputDir ++ [name]) =
      some text.toUTF8 := by
    rw [FileTree.content?_eq_some_iff, Node.at?_append, hthere, Option.bind_some,
      Node.at?_dir_cons, if_pos rfl, Node.at?]
  have hwalk : Node.IsWalk isShort settings.extension settings.inputDir
      [(name, .file text.toUTF8)] [[name]] :=
    .take (List.forall_mem_nil _) (fun h => (Bool.false_ne_true h).elim)
      ((hasExtension_iff hfileName.plain).mpr hname) .nil
  obtain ⟨file, hfile, hplan⟩ := Reported.outcome_bind_eq_ok.mp h
  have hscan : (scanFile tree (joinPath settings.inputDir name)).outcome =
      .ok { file with path := joinPath settings.inputDir name } := by
    have hread := FileTree.scanFile_foldl_joinPath hproper hdir (List.cons_ne_nil _ _) hcontent
    rw [List.foldl_cons, List.foldl_nil] at hread
    rw [hread, declarationsOf, hshort, if_pos rfl, fromUTF8?_toUTF8]
    exact outcome_ofText_of_path hfile
  rw [planOf, FileTree.scanDir_of_isWalk hproper hdir hwalk]
  refine Reported.outcome_bind_eq_ok.mpr ⟨_, Reported.outcome_bind_eq_ok.mpr
    ⟨(), rfl, Reported.outcome_forEach_eq_ok.mpr (.cons hscan .nil)⟩, hplan⟩

/-- A path that is too long is listed for a directory with the extension. -/
theorem not_listsShortPaths_of_mem {dir extension name : String} {node : Node}
    {entries : List (String × Node)} (hdir : tree.list dir = .ok entries)
    (hmem : (name, node) ∈ entries) (hname : extension? name = some extension)
    (hlong : isShort (joinPath dir name) = false) : ¬ tree.ListsShortPaths dir extension := by
  intro hshort
  have hfound : [name] ∈ Node.entriesWithExtension isShort extension dir entries := by
    rw [Node.entriesWithExtension_eq_flatMap]
    refine List.mem_flatMap.mpr ⟨(name, node), hmem, ?_⟩
    rw [Node.withExtension_of_end fun _ => hlong, Node.mem_named]
    exact ⟨rfl, hname⟩
  have hlisted : joinPath dir name ∈ declarationPaths dir extension entries :=
    List.mem_map.mpr ⟨[name], List.mem_mergeSort.mpr hfound, rfl⟩
  exact Bool.false_ne_true (hlong.symm.trans (hshort entries hdir _ hlisted))

/-- A pass that makes a directory with the extension, too deep to be searched, fails when it is made
again. -/
theorem runPass_takes_directory {name : String} {node : Node} {entries : List (String × Node)}
    (hplan : (planOf tree settings).outcome = .ok plan)
    (hwritten : (writePlan tree plan settings.outputDir settings.java).2.outcome = .ok paths)
    (hdir : (writePlan tree plan settings.outputDir settings.java).1.list settings.inputDir =
      .ok entries)
    (hmem : (name, node) ∈ entries) (hname : extension? name = some settings.extension)
    (hlong : isShort (joinPath settings.inputDir name) = false) :
    (runPass tree settings).2.outcome = .ok paths ∧
      ∃ failure events, runPass (runPass tree settings).1 settings =
        ((runPass tree settings).1, ⟨.error failure, events⟩) := by
  have hevents : planOf tree settings = ⟨.ok plan, (planOf tree settings).events⟩ := by
    rw [← hplan]
  have hok : (runPass tree settings).2.outcome = .ok paths := by
    rw [runPass_of_plan hevents]
    exact Reported.outcome_bind_eq_ok.mpr
      ⟨(), rfl, Reported.outcome_bind_eq_ok.mpr ⟨paths, hwritten, rfl⟩⟩
  refine ⟨hok, runPass_of_long_path ?_⟩
  rw [runPass_of_plan hevents]
  exact not_listsShortPaths_of_mem hdir hmem hname hlong

/-- The injector of a class without fields. -/
def plainInjector : Injector where
  name := "K_Injector"
  package := "app"
  parameter := ⟨"app", "K"⟩
  component := ⟨"app", "PreferenceComponent_C"⟩
  assignments := []

/-- A directory with a declaration file. -/
def declaringTree : FileTree :=
  outerTree [("a.prefs", .file "package app;component C{inject K;}class K{}".toUTF8)]

/-- Settings of a pass that reaches the declaration file, and makes a directory that has the
extension of declaration files and a longer name. -/
def deepSettings : Settings where
  inputDir := slashedPath 4080
  outputDir := "in/generated.prefs"

/-- A second pass does not do what the first one did: it fails at the directory that the first one
has made for the generated source, since it takes it for a declaration file. -/
theorem made_directory_is_taken_for_file :
    deepSettings.extension ≠ "java" ∧
      (runPass declaringTree deepSettings).2.outcome =
        .ok ["in/generated.prefs/app/K_Injector.java"] ∧
      ∃ failure events, runPass (runPass declaringTree deepSettings).1 deepSettings =
        ((runPass declaringTree deepSettings).1, ⟨.error failure, events⟩) := by
  have hproper : declaringTree.root.HasProperNames := by
    simp only [declaringTree, outerTree, Node.HasProperNames, Node.EntriesHaveProperNames]
    decide +kernel
  have hshort : 4079 + 3 < pathLimit := by decide
  have hlist : declaringTree.list deepSettings.inputDir = .ok [("a.prefs", _)] :=
    FileTree.list_slashedPath hshort rfl rfl
  have hread : IsFileName "a.prefs" ∧ extension? "a.prefs" = some "prefs" := by decide +kernel
  have hmade : IsFileName "generated.prefs" ∧ extension? "generated.prefs" = some "prefs" := by
    decide +kernel
  have hfits : isShort (joinPath deepSettings.inputDir "a.prefs") = true :=
    (FileTree.isShort_joinPath_slashedPath hread.1.plain 4079).trans (by decide)
  have hlong : isShort (joinPath deepSettings.inputDir "generated.prefs") = false :=
    (FileTree.isShort_joinPath_slashedPath hmade.1.plain 4079).trans (by decide)
  have hplan : (planOf declaringTree deepSettings).outcome = .ok [plainInjector] :=
    planOf_of_path "" hlist hproper hread.2 hfits (by decide +kernel)
  have hwritten : (writePlan declaringTree [plainInjector] deepSettings.outputDir
      deepSettings.java).2.outcome = .ok ["in/generated.prefs/app/K_Injector.java"] := by
    decide +kernel
  have hcwd : (writePlan declaringTree [plainInjector] deepSettings.outputDir
      deepSettings.java).1.cwd = [] := by decide +kernel
  have houter : (writePlan declaringTree [plainInjector] deepSettings.outputDir
      deepSettings.java).1.kind? ["in"] = some none := by decide +kernel
  have hinner : (writePlan declaringTree [plainInjector] deepSettings.outputDir
      deepSettings.java).1.kind? (["in"] ++ ["generated.prefs"]) = some none := by decide +kernel
  obtain ⟨entries, hentries⟩ := FileTree.hasDir_iff.mp houter
  obtain ⟨held, hheld⟩ := FileTree.hasDir_iff.mp hinner
  rw [Node.at?_append, hentries, Option.bind_some, Node.at?] at hheld
  obtain ⟨node, hchild, -⟩ := Option.bind_eq_some_iff.mp hheld
  exact ⟨by decide, runPass_takes_directory hplan hwritten
    (FileTree.list_slashedPath hshort hcwd hentries) (Node.mem_of_child? hchild) hmade.2 hlong⟩

end PreferenceInjector.Command
