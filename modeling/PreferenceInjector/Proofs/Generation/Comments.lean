import PreferenceInjector.Proofs.Declaration.Uncommented
import PreferenceInjector.Proofs.Generation.Retyping

/-!
# Comments in declaration sources

What becomes of a pass when the comments of its sources are replaced by blanks. Comments between
the tokens of a type, and those between a type and the name of its field, are part of the declared
type: only white space is trimmed off. The simple name of such a type may then be cut out of a
comment, or end in one. Everywhere else comments have no meaning.
-/

namespace PreferenceInjector

open Declaration

/-- The declaration files with the given paths and texts. -/
def parseAll (sources : List (String × String)) : Reported (List File) :=
  Reported.forEach (fun (path, text) => File.ofText path text) sources

/-- The injectors that the declarations in some sources ask for. -/
def pass (sources : List (String × String)) : Reported (List Injector) := do
  let files ← parseAll sources
  generate files

/-- The sources with one blank in place of each comment between tokens. -/
def uncommentAll (sources : List (String × String)) : List (String × String) :=
  sources.map fun (path, text) => (path, uncomment text)

/-- A pass has the same plan without the comments, and fails exactly when it fails without them. -/
def CommentsHaveNoMeaning (sources : List (String × String)) : Prop :=
  ∀ plan, (pass sources).outcome = .ok plan ↔ (pass (uncommentAll sources)).outcome = .ok plan

/-- The classes that some sources declare, with their packages, in order. -/
def classesOf (sources : List (String × String)) : List (String × ClassTree) :=
  sources.flatMap fun source =>
    match Document.ofText? source.2.toList with
    | some document => (classTrees document.items).map (document.packageName, ·)
    | none => []

/-- The type of the field has the same simple name without its comments. -/
def Declaration.FieldTree.KeepsName (field : FieldTree) : Prop :=
  simpleName field.field.type = simpleName field.uncommented.field.type

/-- The types of the marked fields of all injected classes have the same simple names without their
comments. -/
def InjectedFieldsKeepNames (sources : List (String × String)) (files : List File) : Prop :=
  ∀ package tree, (package, tree) ∈ classesOf sources →
    (tree.consumer package).qualified ∈ (requestsOf files).map (·.target) →
      ∀ field ∈ tree.fields, field.2.field.marked = true → field.2.KeepsName

/-! ### Parsed sources without comments -/

section Parsed

variable {sources : List (String × String)} {files : List File}

/-- The file of a source without comments has the same components, and the classes of the document
without comments. -/
theorem ofText_uncomment_eq_ok {path text : String} {file : File}
    (h : (File.ofText path text).outcome = .ok file) :
    ∃ document, Document.ofText? text.toList = some document ∧
      file.classes = (classTrees document.items).map (ClassTree.consumer document.packageName) ∧
      (File.ofText path (uncomment text)).outcome = .ok { file with
        classes := (classTrees document.items).map fun tree =>
          tree.uncommented.consumer document.packageName } := by
  obtain ⟨document, hdocument, hfile⟩ := File.exists_of_ofText h
  refine ⟨document, hdocument, ?_⟩
  rw [File.ofText_uncomment hdocument]
  rw [Document.file, Reported.outcome_bind_eq_ok] at hfile
  obtain ⟨entries, hentries, hfile⟩ := hfile
  cases hfile
  refine ⟨rfl, ?_⟩
  rw [Document.file, Document.packageName_uncommented, Reported.outcome_bind_eq_ok]
  refine ⟨entries, ?_, ?_⟩
  · rw [Reported.outcome_forEach_eq_ok] at hentries ⊢
    rw [Document.uncommented, componentTrees_uncommented, List.forall₂_map_left_iff]
    simp only [ComponentTree.entry_uncommented]
    exact hentries
  · rw [Document.uncommented, classTrees_uncommented, List.map_map]
    rfl

/-- Sources that parse do so without their comments, with the same components and with the classes
without comments. -/
theorem parseAll_uncommentAll (h : (parseAll sources).outcome = .ok files) :
    ∃ bare, (parseAll (uncommentAll sources)).outcome = .ok bare ∧
      entriesOf files = entriesOf bare ∧
      consumersOf files = (classesOf sources).map (fun (package, tree) => tree.consumer package) ∧
      consumersOf bare =
        (classesOf sources).map fun (package, tree) => tree.uncommented.consumer package := by
  rw [parseAll, Reported.outcome_forEach_eq_ok] at h
  simp only [parseAll, Reported.outcome_forEach_eq_ok]
  induction h with
  | nil => exact ⟨[], .nil, rfl, rfl, rfl⟩
  | @cons source file sources files hfile _ ih =>
    obtain ⟨bare, hbare, hentries, hconsumers, hothers⟩ := ih
    obtain ⟨document, hdocument, hclasses, hother⟩ := ofText_uncomment_eq_ok hfile
    have hsplit : classesOf (source :: sources) =
        (classTrees document.items).map (document.packageName, ·) ++ classesOf sources := by
      simp [classesOf, hdocument]
    refine ⟨_ :: bare, .cons hother hbare, ?_, ?_, ?_⟩
    · exact congrArg (file.components ++ ·) hentries
    · rw [hsplit, List.map_append, List.map_map, ← hconsumers]
      exact congrArg (· ++ consumersOf files) hclasses
    · rw [hsplit, List.map_append, List.map_map, ← hothers]
      rfl

/-- A class without comments differs in the types of its fields only. -/
theorem isRetyped_uncommented (package : String) (tree : ClassTree) :
    (tree.consumer package).IsRetyped (tree.uncommented.consumer package) := by
  refine ⟨rfl, rfl, ?_⟩
  rw [ClassTree.consumer, ClassTree.consumer, ClassTree.uncommented, List.map_map,
    List.forall₂_map_left_iff, List.forall₂_map_right_iff, List.forall₂_same]
  intro field _
  obtain ⟨hname, hmarked⟩ := field.2.field_uncommented
  exact ⟨hname.symm, hmarked.symm⟩

/-- The marked fields of a class keep the simple names of their types when those of its declaration
do. -/
theorem keepsNames_uncommented (package : String) (tree : ClassTree) :
    (tree.consumer package).KeepsNames (tree.uncommented.consumer package) ↔
      ∀ field ∈ tree.fields, field.2.field.marked = true → field.2.KeepsName := by
  rw [Consumer.KeepsNames, ClassTree.consumer, ClassTree.consumer, ClassTree.uncommented,
    List.map_map, List.forall₂_map_left_iff, List.forall₂_map_right_iff, List.forall₂_same]
  rfl

/-- The names are kept where no comment stands inside the type of a marked field or behind it. -/
theorem InjectedFieldsKeepNames.of_bare
    (h : ∀ package tree, (package, tree) ∈ classesOf sources →
      ∀ field ∈ tree.fields, field.2.field.marked = true → field.2.TypeIsBare) :
    InjectedFieldsKeepNames sources files := by
  intro package tree htree _ field hfield hmarked
  have hsame := (h package tree htree field hfield hmarked).field_uncommented
  rw [FieldTree.KeepsName, hsame]

/-- A pass over parsed sources generates from their files. -/
theorem pass_eq_ok_iff (h : (parseAll sources).outcome = .ok files) (plan : List Injector) :
    (pass sources).outcome = .ok plan ↔ (generate files).outcome = .ok plan := by
  rw [pass, Reported.outcome_bind_eq_ok]
  constructor
  · intro hpass
    obtain ⟨found, hfound, hplan⟩ := hpass
    cases h.symm.trans hfound
    exact hplan
  · intro hplan
    exact ⟨files, h, hplan⟩

/-- The comments of parsed sources have no meaning exactly when the pass fails with and without
them, or the marked fields of all injected classes keep the simple names of their types. -/
theorem commentsHaveNoMeaning_iff (h : (parseAll sources).outcome = .ok files) :
    ∃ bare, (parseAll (uncommentAll sources)).outcome = .ok bare ∧
      (CommentsHaveNoMeaning sources ↔
        (Coherent files ∨ Coherent bare → InjectedFieldsKeepNames sources files)) := by
  obtain ⟨bare, hbare, hentries, hconsumers, hothers⟩ := parseAll_uncommentAll h
  refine ⟨bare, hbare, ?_⟩
  have hretyped : AreRetyped files bare := by
    refine ⟨hentries, ?_⟩
    rw [hconsumers, hothers, List.forall₂_map_left_iff, List.forall₂_map_right_iff,
      List.forall₂_same]
    exact fun _ _ => isRetyped_uncommented _ _
  have hkeep : KeepNames files bare ↔ InjectedFieldsKeepNames sources files := by
    rw [KeepNames, hconsumers, hothers, List.forall₂_map_left_iff, List.forall₂_map_right_iff,
      List.forall₂_same]
    simp only [keepsNames_uncommented, Prod.forall, InjectedFieldsKeepNames]
  rw [CommentsHaveNoMeaning, ← hkeep, ← hretyped.agree_iff]
  simp only [pass_eq_ok_iff h, pass_eq_ok_iff hbare]

end Parsed

/-! ### A comment with a meaning -/

/-- A source with a comment behind the type of the marked field. -/
def commentedSource : String :=
  "component C\x7bentities Preference_B;inject K;\x7d" ++
    "class K\x7b@InjectPreference Preference_B /* c */ b;\x7d"

/-- The document of the source; its reading leaves the comment in the type. -/
def commentedDocument : Document where
  atStart := []
  package := none
  items := [
    ([], .component {
      beforeName := [.blank ' '], name := ['C'], beforeBody := []
      entries := [
        ([], .entities ⟨[.blank ' '], ⟨"Preference_B".toList, []⟩, []⟩ []),
        ([], .inject ⟨[.blank ' '], ⟨['K'], []⟩, []⟩ [])]
      beforeEnd := [] }),
    ([], .consumer {
      beforeName := [.blank ' '], name := ['K'], beforeBody := []
      fields := [([], {
        decorations := [([], .annotated [] ⟨"InjectPreference".toList, []⟩ [.blank ' '] none)]
        beforeType := []
        type := .plain ⟨"Preference_B".toList, []⟩
          [.blank ' ', .blockComment [' ', 'c', ' '], .blank ' '] []
        beforeName := [], name := ['b'], beforeEnd := [] })]
      beforeEnd := [] })]
  atEnd := []

/-- The file of the source when the marked field has the given type. -/
def fileWithType (type : String) : File where
  path := "a.prefs"
  package := ""
  components := [{
    component := {
      package := "", className := "C", wrappers := ["Preference_B"], visible := by decide
      nodup := by decide, wrapperNames := by decide }
    injects := ["K"] }]
  classes := [⟨"", "K", [⟨"b", type, true⟩]⟩]

/-- The source is read as its document. -/
theorem ofText?_commentedSource :
    Document.ofText? commentedSource.toList = some commentedDocument.settle := by
  have htext : commentedSource.toList = commentedDocument.text := by decide
  have hformed : commentedDocument.WellFormed := by decide
  rw [htext, Document.ofText?_text hformed]

/-- The source is parsed with the comment in the type of the field. -/
theorem parseAll_commentedSource :
    (parseAll [("a.prefs", commentedSource)]).outcome =
      .ok [fileWithType "Preference_B /* c */"] := by
  have hfile : (commentedDocument.settle.file "a.prefs").outcome =
      .ok (fileWithType "Preference_B /* c */") := by decide +kernel
  have hparsed : (File.ofText "a.prefs" commentedSource).outcome =
      .ok (fileWithType "Preference_B /* c */") := by
    rw [File.ofText, ofText?_commentedSource]
    exact hfile
  rw [parseAll, Reported.outcome_forEach_eq_ok]
  exact .cons hparsed .nil

/-- Without the comment the source is parsed with the wrapper as the type of the field. -/
theorem parseAll_uncommentAll_commentedSource :
    (parseAll (uncommentAll [("a.prefs", commentedSource)])).outcome =
      .ok [fileWithType "Preference_B"] := by
  have hfile : (commentedDocument.settle.uncommented.file "a.prefs").outcome =
      .ok (fileWithType "Preference_B") := by decide +kernel
  have hparsed : (File.ofText "a.prefs" (uncomment commentedSource)).outcome =
      .ok (fileWithType "Preference_B") := by
    rw [File.ofText_uncomment ofText?_commentedSource]
    exact hfile
  rw [parseAll, Reported.outcome_forEach_eq_ok]
  exact .cons hparsed .nil

/-- The comment makes the difference that the types of injected fields make. -/
theorem commentsHaveNoMeaning_iff_sample :
    (parseAll [("a.prefs", commentedSource)]).outcome =
      .ok [fileWithType "Preference_B /* c */"] ∧
    ∃ bare, (parseAll (uncommentAll [("a.prefs", commentedSource)])).outcome = .ok bare ∧
      (CommentsHaveNoMeaning [("a.prefs", commentedSource)] ↔
        (Coherent [fileWithType "Preference_B /* c */"] ∨ Coherent bare →
          InjectedFieldsKeepNames [("a.prefs", commentedSource)]
            [fileWithType "Preference_B /* c */"])) :=
  ⟨parseAll_commentedSource, commentsHaveNoMeaning_iff parseAll_commentedSource⟩

/-- Comments have a meaning: one behind the type of a marked field makes it unresolvable. -/
theorem comments_have_meaning :
    ¬ ∀ sources files, (parseAll sources).outcome = .ok files → CommentsHaveNoMeaning sources := by
  intro h
  have hplan : (generate [fileWithType "Preference_B"]).outcome = .ok [{
      name := "K_Injector", package := "", parameter := ⟨"", "K"⟩
      component := ⟨"", "PreferenceComponent_C"⟩
      assignments := [⟨"b", ⟨⟨"", "PreferenceComponent_C"⟩, some "B"⟩⟩] }] := by
    decide +kernel
  have hfails : (generate [fileWithType "Preference_B /* c */"]).outcome =
      .error (.unresolvable "K" "b" "Preference_B /* c */") := by
    decide +kernel
  have hbare := (pass_eq_ok_iff parseAll_uncommentAll_commentedSource _).mpr hplan
  have hmeaning := (h _ _ parseAll_commentedSource _).mpr hbare
  have hcommented := (pass_eq_ok_iff parseAll_commentedSource _).mp hmeaning
  cases hfails.symm.trans hcommented

end PreferenceInjector
