import PreferenceInjector.Proofs.Declaration.Parsing
import PreferenceInjector.Proofs.Generation.Components
import PreferenceInjector.Proofs.Generation.Log

/-!
# Refused declaration files

A text is refused for its grammar before anything in it is looked at, so that a name in the wrong
place never hides a syntax error behind it. In a text that follows the grammar only one thing can
be wrong: a component lists a name among its wrappers that is not that of a wrapper. The first such
component of the file is reported, with the first such name of all its lists; repeated names are
dropped before the names are looked at, which does not change which one comes first.

Nothing else is ever reported. In particular every component has a class name, because the grammar
asks for an identifier.
-/

namespace PreferenceInjector.Declaration

/-- The text is that of a well-formed document, from its first to its last character. -/
def FollowsGrammar (text : String) : Prop :=
  ∃ document : Document, document.WellFormed ∧ document.text = text.toList

/-- Some component lists a name that is not that of a wrapper. -/
def Document.Misnames (document : Document) : Prop :=
  ∃ tree ∈ componentTrees document.items, ∃ name ∈ tree.entityNames, ¬ name.IsWrapper

/-- The component is the first one of the file that lists a name which is not that of a wrapper,
and the name is the first such one of its lists taken together. -/
structure Document.FirstMisnames (document : Document) (tree : ComponentTree) (name : Dotted) :
    Prop where
  component : ∃ before later, componentTrees document.items = before ++ tree :: later ∧
    ∀ earlier ∈ before, ∀ listed ∈ earlier.entityNames, listed.IsWrapper
  name : ∃ before later, tree.entityNames = before ++ name :: later ∧
    (∀ earlier ∈ before, earlier.IsWrapper) ∧ ¬ name.IsWrapper

/-- The document is read unless it misnames a wrapper, and otherwise the first misnamed one is
reported. -/
structure Document.IsReadAs (document : Document) (reading : Reported File) : Prop where
  accepted : (∃ file, reading.outcome = .ok file) ↔ ¬ document.Misnames
  malformed : (∃ flaw, reading.outcome = .error (.malformed flaw)) ↔ document.Misnames
  exists_first : document.Misnames → ∃ tree name, document.FirstMisnames tree name
  first : ∀ tree name, document.FirstMisnames tree name → reading = Reported.malformed
    s!"component {String.ofList tree.name} lists '{String.ofList name.last}', which is not a Preference_<Model> wrapper"

variable {document : Document} {tree : ComponentTree} {name : Dotted} {path text : String}

/-! ### Misnamed wrappers -/

/-- A name is that of a wrapper when its last identifier names one. -/
theorem Dotted.isWrapper_iff : name.IsWrapper ↔ NamesWrapper (String.ofList name.last) := by
  constructor
  · rintro ⟨model, hmodel, hlast⟩
    refine ⟨String.ofList model, ?_, by simpa using hmodel⟩
    simp [← String.toList_inj, hlast]
  · rintro ⟨model, hlast, hmodel⟩
    refine ⟨model.toList, by simpa using hmodel, ?_⟩
    rw [← String.toList_append, ← hlast, String.toList_ofList]

/-- A document misnames no wrapper when it lists wrappers only. -/
theorem Document.not_misnames_iff : ¬ document.Misnames ↔
    ∀ tree ∈ componentTrees document.items, ∀ name ∈ tree.entityNames, name.IsWrapper := by
  simp only [Document.Misnames, not_exists, not_and, not_not]

/-- One of the misnamed wrappers comes first. -/
theorem Document.Misnames.exists_first (h : document.Misnames) :
    ∃ tree name, document.FirstMisnames tree name := by
  have hcomponents : ¬ ∀ tree ∈ componentTrees document.items,
      ∀ name ∈ tree.entityNames, name.IsWrapper := by
    rwa [← Document.not_misnames_iff, not_not]
  obtain ⟨before, tree, later, hsplit, hbefore, htree⟩ := exists_first_of_not_forall hcomponents
  obtain ⟨earlier, name, further, hnames, hearlier, hname⟩ := exists_first_of_not_forall htree
  exact ⟨tree, name, ⟨before, later, hsplit, hbefore⟩, earlier, further, hnames, hearlier, hname⟩

/-- A legal component is reported with the first name that it lists and that is not that of a
wrapper. -/
theorem ComponentTree.entry_of_first {rest : List Char} (hlegal : Legal tree.pieces rest)
    {before later : List Dotted} (hnames : tree.entityNames = before ++ name :: later)
    (hbefore : ∀ earlier ∈ before, earlier.IsWrapper) (hname : ¬ name.IsWrapper)
    (package : String) : tree.entry package = Reported.malformed
      (Flaw.foreignWrapper (String.ofList tree.name) (String.ofList name.last)).text := by
  have hvisible : isVisible (String.ofList tree.name) = true :=
    (hlegal.identifier (by simp [ComponentTree.pieces])).isVisible
  have hfind : (tree.entries.flatMap (·.2.wrappers)).find? (! isWrapperName ·) =
      some (String.ofList name.last) := by
    rw [ComponentTree.wrappers_eq hlegal, hnames, List.map_append, List.map_cons,
      List.find?_eq_some_iff_append]
    simp only [Bool.not_eq_true', ← Bool.not_eq_true, isWrapperName_iff, ← Dotted.isWrapper_iff]
    refine ⟨hname, _, _, rfl, ?_⟩
    simpa [isWrapperName_iff, ← Dotted.isWrapper_iff] using hbefore
  rw [ComponentTree.entry, declare_of_find? package hvisible hfind]
  rfl

/-- A well-formed document is reported with its first misnamed wrapper. -/
theorem Document.WellFormed.file_of_first (h : document.WellFormed)
    (hfirst : document.FirstMisnames tree name) (path : String) :
    document.file path = Reported.malformed
      (Flaw.foreignWrapper (String.ofList tree.name) (String.ofList name.last)).text := by
  obtain ⟨⟨before, later, hsplit, hbefore⟩, earlier, further, hnames, hearlier, hname⟩ := hfirst
  have hlegal : ∀ other ∈ componentTrees document.items, ∃ rest, Legal other.pieces rest := by
    intro other hother
    obtain ⟨gap, hitem⟩ := mem_componentTrees.mp hother
    exact h.item _ hitem
  have hentries : ∀ other ∈ before,
      ∃ entry, (other.entry document.packageName).outcome = .ok entry := by
    intro other hother
    obtain ⟨rest, hother'⟩ := hlegal other (by simp [hsplit, hother])
    exact ComponentTree.exists_entry hother' (hbefore other hother) _
  obtain ⟨rest, htree⟩ := hlegal tree (by simp [hsplit])
  have hentry := ComponentTree.entry_of_first htree hnames hearlier hname document.packageName
  rw [Document.file, hsplit, Reported.forEach_of_error hentries (by rw [hentry]; rfl),
    flatMap_events_entry hentries, hentry]
  rfl

/-- Settling changes neither the components nor, with them, the first misnamed wrapper. -/
theorem Document.FirstMisnames.settle (h : document.FirstMisnames tree name) :
    document.settle.FirstMisnames tree name := by
  obtain ⟨-, hcomponents, -⟩ := document.settle_trees
  exact ⟨by rw [hcomponents]; exact h.component, h.name⟩

/-! ### Texts -/

/-- The text of a well-formed document is read as what the document lists. -/
theorem Document.WellFormed.isReadAs (h : document.WellFormed) (path : String) :
    document.IsReadAs (File.ofText path (String.ofList document.text)) := by
  obtain ⟨hsettled, -⟩ := Document.of_ofText? (Document.ofText?_text h)
  have hfirst : ∀ tree name, document.FirstMisnames tree name →
      File.ofText path (String.ofList document.text) = Reported.malformed
        (Flaw.foreignWrapper (String.ofList tree.name) (String.ofList name.last)).text := by
    intro tree name hfirst
    rw [File.ofText_text h, hsettled.file_of_first hfirst.settle]
  have hmalformed : document.Misnames → ∃ flaw,
      File.ofText path (String.ofList document.text) = Reported.malformed flaw := by
    intro hmisnames
    obtain ⟨tree, name, hname⟩ := hmisnames.exists_first
    exact ⟨_, hfirst tree name hname⟩
  have haccepted : ¬ document.Misnames →
      ∃ file, (File.ofText path (String.ofList document.text)).outcome = .ok file := by
    intro hnames
    rw [Document.not_misnames_iff] at hnames
    rw [File.ofText_text h]
    obtain ⟨-, hcomponents, -⟩ := document.settle_trees
    apply hsettled.exists_file
    intro gap tree hitem
    exact hnames tree (by rw [← hcomponents]; exact mem_componentTrees.mpr ⟨gap, hitem⟩)
  refine ⟨⟨?_, haccepted⟩, ⟨?_, ?_⟩, Document.Misnames.exists_first, hfirst⟩
  · rintro ⟨file, hfile⟩ hmisnames
    obtain ⟨flaw, hflaw⟩ := hmalformed hmisnames
    rw [hflaw] at hfile
    cases hfile
  · rintro ⟨flaw, hflaw⟩
    by_contra hnames
    obtain ⟨file, hfile⟩ := haccepted hnames
    cases hfile.symm.trans hflaw
  · intro hmisnames
    obtain ⟨flaw, hflaw⟩ := hmalformed hmisnames
    exact ⟨flaw, by rw [hflaw]; rfl⟩

/-- A text that does not follow the grammar is refused as such. -/
theorem File.ofText_of_not_followsGrammar (h : ¬ FollowsGrammar text) (path : String) :
    File.ofText path text = Reported.fail (.ungrammatical path (report path text.toList)) := by
  rw [File.ofText]
  cases hdocument : Document.ofText? text.toList with
  | none => rfl
  | some document => exact (h ⟨document, Document.of_ofText? hdocument⟩).elim

/-- The explanation of a refused text has several lines. -/
theorem newline_mem_report (path : String) (s : List Char) : '\n' ∈ (report path s).toList := by
  simp only [report, String.intercalate_cons_cons, String.toList_append]
  simp

/-- A wrong wrapper is never described as a missing class name: the descriptions end in different
words. -/
theorem text_foreignWrapper_ne (component wrapper package : String) :
    (Flaw.foreignWrapper component wrapper).text ≠ (Flaw.unnamed package).text := by
  intro h
  have htexts : "component " ++ component ++ " lists '" ++ wrapper ++
      "', which is not a Preference_<Model> wrapper" =
        "component in package '" ++ package ++ "' has no class name" := h
  have hends := congrArg (fun text : String => text.toList.getLast?) htexts
  simp [List.getLast?_cons, List.getLast?_append] at hends

/-- A text is refused for its grammar exactly when it does not follow it as a whole. A text that
does is refused exactly when a component misnames a wrapper, and the first misnamed wrapper of the
file is what is reported; all other texts are read. There is always an explanation of a text that
does not follow the grammar, and no component is ever reported to lack its class name. -/
theorem File.ofText_reports_first_mistake (path text : String) :
    ((∃ explanation, (File.ofText path text).outcome = .error (.ungrammatical path explanation)) ↔
      ¬ FollowsGrammar text) ∧
    (∀ document : Document, document.WellFormed → document.text = text.toList →
      document.IsReadAs (File.ofText path text)) ∧
    (∀ explanation, (File.ofText path text).outcome = .error (.ungrammatical path explanation) →
      explanation ≠ "empty parse tree") ∧
    ∀ package : String, (File.ofText path text).outcome ≠
      .error (.malformed s!"component in package '{package}' has no class name") := by
  have hread : ∀ document : Document, document.WellFormed → document.text = text.toList →
      document.IsReadAs (File.ofText path text) := by
    intro document hformed htext
    have hread := hformed.isReadAs path
    rwa [htext, String.ofList_toList] at hread
  by_cases hgrammar : FollowsGrammar text
  · obtain ⟨document, hformed, htext⟩ := hgrammar
    have hdocument := hread document hformed htext
    have hgrammatical : ∀ explanation,
        (File.ofText path text).outcome ≠ .error (.ungrammatical path explanation) := by
      intro explanation hrefused
      by_cases hmisnames : document.Misnames
      · obtain ⟨flaw, hflaw⟩ := hdocument.malformed.mpr hmisnames
        cases hflaw.symm.trans hrefused
      · obtain ⟨file, hfile⟩ := hdocument.accepted.mpr hmisnames
        cases hfile.symm.trans hrefused
    refine ⟨⟨?_, ?_⟩, hread, ?_, ?_⟩
    · exact fun ⟨explanation, hrefused⟩ => (hgrammatical explanation hrefused).elim
    · exact fun hnot => (hnot ⟨document, hformed, htext⟩).elim
    · exact fun explanation hrefused => (hgrammatical explanation hrefused).elim
    · intro package hrefused
      obtain ⟨tree, name, hfirst⟩ :=
        hdocument.exists_first (hdocument.malformed.mp ⟨_, hrefused⟩)
      rw [hdocument.first tree name hfirst] at hrefused
      exact text_foreignWrapper_ne _ _ _ (Failure.malformed.inj (Except.error.inj hrefused))
  · have hrefused := File.ofText_of_not_followsGrammar hgrammar path
    refine ⟨⟨fun _ => hgrammar, fun _ => ⟨_, by rw [hrefused]; rfl⟩⟩, hread, ?_, ?_⟩
    · intro explanation hexplanation hempty
      rw [hrefused, Reported.fail, Except.error.injEq, Failure.ungrammatical.injEq] at hexplanation
      have hnewline := newline_mem_report path text.toList
      rw [hexplanation.2, hempty] at hnewline
      exact absurd hnewline (by decide)
    · intro package hmalformed
      rw [hrefused] at hmalformed
      cases hmalformed

end PreferenceInjector.Declaration
