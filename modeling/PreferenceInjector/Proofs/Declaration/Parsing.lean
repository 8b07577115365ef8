import PreferenceInjector.Proofs.Declaration.Conversion

/-!
# Parsing declaration files

Parsing accepts exactly the texts of well-formed documents whose lists of wrappers hold wrappers
only, and results in the file that such a document declares. Reading settles a document, which
moves the gap behind a type into the type; as long as that gap is white space, it is trimmed off
again and the declared type does not depend on it.
-/

namespace PreferenceInjector.Declaration

/-! ### White space behind a type -/

/-- Trimming removes white space at the end. -/
theorem trimmed_append {text blanks : List Char} (h : ∀ c ∈ blanks, isWhiteSpace c = true) :
    trimmed (text ++ blanks) = trimmed text := by
  have hblanks : ∀ c ∈ blanks.reverse, isWhiteSpace c = true := by
    intro c hc
    exact h c (List.mem_reverse.mp hc)
  rw [trimmed, trimmed, trimBoth, trimBoth, List.dropWhile_append]
  split
  · next hempty =>
    rw [List.isEmpty_iff] at hempty
    have hnil : blanks.dropWhile isWhiteSpace = [] := List.dropWhile_eq_nil_iff.mpr h
    rw [hempty, hnil]
  · rw [List.reverse_append, List.dropWhile_append,
      List.dropWhile_eq_nil_iff.mpr hblanks]
    rfl

/-- Nothing is trimmed off a text without white space at its two ends. -/
theorem trimmed_eq_self {text : List Char} (hfirst : ∀ c ∈ text.head?, isWhiteSpace c = false)
    (hlast : ∀ c ∈ text.getLast?, isWhiteSpace c = false) : trimmed text = text := by
  have hkept : ∀ text : List Char, (∀ c ∈ text.head?, isWhiteSpace c = false) →
      text.dropWhile isWhiteSpace = text := by
    intro text hfirst
    cases text with
    | nil => rfl
    | cons c text => rw [List.dropWhile_cons_of_neg (by simp [hfirst c rfl])]
  rw [← List.head?_reverse] at hlast
  rw [trimmed, trimBoth, hkept text hfirst, hkept text.reverse hlast, List.reverse_reverse]

/-- A skipped piece that is a comment. -/
def Skipped.IsComment : Skipped → Prop
  | blank _ => False
  | lineComment _ => True
  | blockComment _ => True

/-- No comment stands inside a field's type or directly behind it. -/
def FieldTree.TypeIsBare (field : FieldTree) : Prop :=
  ∀ piece, .skipped piece ∈ field.type.pieces ++ Gap.pieces field.beforeName → ¬ piece.IsComment

/-- A legal gap without comments is white space. -/
theorem isWhiteSpace_of_mem_gap {gap : Gap} {rest : List Char}
    (hlegal : Legal (Gap.pieces gap) rest) (h : ∀ piece ∈ gap, ¬ piece.IsComment) :
    ∀ c ∈ Gap.text gap, isWhiteSpace c = true := by
  induction gap with
  | nil => simp
  | cons piece gap ih =>
    obtain ⟨hpiece, hgap⟩ := legal_pieces_cons.mp hlegal
    obtain ⟨hbare, hbares⟩ := List.forall_mem_cons.mp h
    cases piece with
    | blank d =>
      have hblank : isWhiteSpace d = true := by
        have hd : isBlank d = true := hpiece
        simp only [isBlank, Bool.or_eq_true, beq_iff_eq] at hd
        rcases hd with ((rfl | rfl) | rfl) | rfl <;> decide
      have htext : Gap.text (.blank d :: gap) = d :: Gap.text gap := rfl
      rw [htext]
      exact List.forall_mem_cons.mpr ⟨hblank, ih hgap hbares⟩
    | lineComment body => exact (hbare trivial).elim
    | blockComment body => exact (hbare trivial).elim

/-! ### What is declared by a settled document -/

/-- Settling decorations neither adds a marker nor loses one. -/
theorem settleDecorations_any (decorations : List (Gap × Decoration)) (next : Gap) :
    (settleDecorations decorations next).1.any (·.2.isMarker) =
      decorations.any (·.2.isMarker) := by
  fun_induction settleDecorations decorations next with
  | case1 next => rfl
  | case2 next gap inside name after more gathered settled ih =>
    have hmore := gather_map Decoration.isMarker after more next
    have hany := congrArg (List.any · id) hmore
    simp only [List.any_map] at hany
    rw [List.any_cons, ih, List.any_cons]
    exact congrArg (_ || ·) hany
  | case3 next gap decoration more _ settled ih =>
    rw [List.any_cons, ih, List.any_cons]

/-- A settled field declares the same when its type is bare. -/
theorem FieldTree.settle_field {field : FieldTree} {gap : Gap} {rest : List Char}
    (hlegal : Legal (Gap.pieces field.beforeName) rest) (h : field.TypeIsBare) :
    (field.settle gap).2.field = field.field := by
  have hblanks : ∀ c ∈ Gap.text field.beforeName, isWhiteSpace c = true := by
    apply isWhiteSpace_of_mem_gap hlegal
    intro piece hpiece
    exact h piece (List.mem_append_right _ (List.mem_map_of_mem hpiece))
  have htype : trimmed (field.type.settle field.beforeName).1.text = trimmed field.type.text := by
    rcases field.type.settle_text field.beforeName with htext | htext
    · rw [htext]
    · rw [htext, trimmed_append hblanks]
  have hany := congrArg (List.any · id)
    (gather_map Decoration.isMarker gap field.decorations field.beforeType)
  simp only [List.any_map] at hany
  have hmarked : (field.settle gap).2.decorations.any (·.2.isMarker) =
      field.decorations.any (·.2.isMarker) := by
    rw [FieldTree.settle, settleDecorations_any]
    exact hany
  rw [FieldTree.field, FieldTree.field, hmarked]
  exact congrArg (Field.mk _ · _) (congrArg String.ofList htype)

/-- A settled class declares the same when the types of its fields are bare. -/
theorem ClassTree.settle_consumer {tree : ClassTree} {rest : List Char}
    (hlegal : Legal tree.pieces rest) (h : ∀ field ∈ tree.fields, field.2.TypeIsBare)
    (package : String) : tree.settle.consumer package = tree.consumer package := by
  have hmap : tree.settle.fields.map (·.2.field) = tree.fields.map (·.2.field) := by
    rw [ClassTree.settle, List.map_map]
    apply List.map_congr_left
    intro field hmem
    obtain ⟨r, hfield⟩ := ClassTree.legal_field hlegal field hmem
    obtain ⟨r, hgap⟩ : ∃ r, Legal (Gap.pieces field.2.beforeName) r :=
      hfield.of_infix (spread Decoration.pieces field.2.decorations ++
        Gap.pieces field.2.beforeType ++ field.2.type.pieces)
        (.identifier field.2.name :: Gap.pieces field.2.beforeEnd ++ [.fixed [';']])
        (by simp [FieldTree.pieces])
    exact FieldTree.settle_field hgap (h field hmem)
  rw [ClassTree.consumer, ClassTree.consumer, hmap]
  rfl

/-- Settling changes no component. -/
theorem componentTrees_settle (items : List (Gap × ItemTree)) :
    componentTrees (items.map fun (gap, item) => (gap, item.settle)) = componentTrees items := by
  induction items with
  | nil => rfl
  | cons item items ih =>
    obtain ⟨gap, item⟩ := item
    cases item with
    | component tree => exact congrArg (tree :: ·) ih
    | consumer tree => exact ih

/-- Settling blocks settles their classes. -/
theorem classTrees_settle (items : List (Gap × ItemTree)) :
    classTrees (items.map fun (gap, item) => (gap, item.settle)) =
      (classTrees items).map ClassTree.settle := by
  induction items with
  | nil => rfl
  | cons item items ih =>
    obtain ⟨gap, item⟩ := item
    cases item with
    | component tree => exact ih
    | consumer tree => exact congrArg (tree.settle :: ·) ih

/-- Gathering changes neither the components nor the classes among blocks. -/
theorem trees_gather (gap : Gap) (items : List (Gap × ItemTree)) (next : Gap) :
    componentTrees (gather gap items next).items = componentTrees items ∧
      classTrees (gather gap items next).items = classTrees items := by
  cases items with
  | nil => exact ⟨rfl, rfl⟩
  | cons item items =>
    obtain ⟨before, item⟩ := item
    cases item with
    | component tree => exact ⟨rfl, rfl⟩
    | consumer tree => exact ⟨rfl, rfl⟩

/-- A settled document has the same package and components, and the settled classes. -/
theorem Document.settle_trees (document : Document) :
    document.settle.packageName = document.packageName ∧
      componentTrees document.settle.items = componentTrees document.items ∧
      classTrees document.settle.items = (classTrees document.items).map ClassTree.settle := by
  obtain ⟨atStart, package, items, atEnd⟩ := document
  cases package with
  | some package => exact ⟨rfl, componentTrees_settle items, classTrees_settle items⟩
  | none =>
    obtain ⟨hcomponents, hclasses⟩ := trees_gather atStart items atEnd
    refine ⟨rfl, ?_, ?_⟩
    · exact (componentTrees_settle _).trans hcomponents
    · exact (classTrees_settle _).trans (congrArg _ hclasses)

/-- A settled document declares the same when the types of its fields are bare. -/
theorem Document.WellFormed.settle_file {document : Document} (h : document.WellFormed)
    (hbare : ∀ field ∈ document.fields, field.TypeIsBare) (path : String) :
    document.settle.file path = document.file path := by
  obtain ⟨hpackage, hcomponents, hclasses⟩ := document.settle_trees
  have hconsumers : (classTrees document.settle.items).map
        (ClassTree.consumer document.packageName) =
      (classTrees document.items).map (ClassTree.consumer document.packageName) := by
    rw [hclasses, List.map_map]
    apply List.map_congr_left
    intro tree htree
    obtain ⟨gap, hitem⟩ := mem_classTrees.mp htree
    obtain ⟨r, hlegal⟩ := h.item _ hitem
    apply ClassTree.settle_consumer hlegal
    intro field hfield
    apply hbare
    exact List.mem_flatMap.mpr ⟨tree, htree, List.mem_map_of_mem hfield⟩
  rw [Document.file, Document.file, hpackage, hcomponents, hconsumers]

/-! ### Texts -/

/-- The text of a well-formed document is parsed as the settled document. -/
theorem File.ofText_text {document : Document} (h : document.WellFormed) (path : String) :
    File.ofText path (String.ofList document.text) = document.settle.file path := by
  rw [File.ofText, String.toList_ofList, Document.ofText?_text h]

/-- A parsed text is that of a well-formed document. -/
theorem File.exists_of_ofText {path text : String} {file : File}
    (h : (File.ofText path text).outcome = .ok file) :
    ∃ document, Document.ofText? text.toList = some document ∧
      (document.file path).outcome = .ok file := by
  unfold File.ofText at h
  split at h
  · next document hdocument => exact ⟨document, hdocument, h⟩
  · cases h

/-- Every layout of a well-formed document is parsed, and exactly as the file that the document
declares. -/
theorem File.ofText_layout {document : Document} (h : document.WellFormed)
    (hbare : ∀ field ∈ document.fields, field.TypeIsBare) (hwrappers : document.ListsWrappers)
    (path : String) :
    ∃ file, (File.ofText path (String.ofList document.text)).outcome = .ok file ∧
      document.Declares path file ∧ ∀ other, document.Declares path other → other = file := by
  obtain ⟨file, hfile⟩ := h.exists_file hwrappers path
  have hdeclares := h.declares hfile
  refine ⟨file, ?_, hdeclares, fun other hother => hother.unique hdeclares⟩
  rw [File.ofText_text h, h.settle_file hbare, hfile]

/-- A package clause, a component that injects a class, and the class with one marked field, with
a comment between the blocks and one at the end. -/
def sampleDocument : Document where
  atStart := []
  package := some ⟨[.blank ' '], ⟨['p'], []⟩, []⟩
  items := [
    ([.blank '\n'], .component {
      beforeName := [.blank ' '], name := ['C'], beforeBody := []
      entries := [
        ([], .entities ⟨[.blank ' '], ⟨"Preference_A".toList, []⟩, []⟩ []),
        ([], .inject ⟨[.blank ' '], ⟨['K'], []⟩, []⟩ [])]
      beforeEnd := [] }),
    ([.blockComment ['*']], .consumer {
      beforeName := [.blank '\t'], name := ['K'], beforeBody := []
      fields := [([], {
        decorations := [([], .annotated [] ⟨"InjectPreference".toList, []⟩ [.blank ' '] none)]
        beforeType := []
        type := .plain ⟨"Preference_A".toList, []⟩ [.blank ' '] []
        beforeName := [], name := ['a'], beforeEnd := [] })]
      beforeEnd := [] })]
  atEnd := [.lineComment []]

/-- The sample is well formed. -/
theorem sampleDocument_wellFormed : sampleDocument.WellFormed := by decide

/-- The sample is parsed as the file that it declares. -/
theorem File.ofText_layout_sample :
    (∀ field ∈ sampleDocument.fields, field.TypeIsBare) ∧ sampleDocument.ListsWrappers ∧
      ∃ file, (File.ofText "a.prefs" (String.ofList sampleDocument.text)).outcome = .ok file ∧
        sampleDocument.Declares "a.prefs" file ∧
          ∀ other, sampleDocument.Declares "a.prefs" other → other = file := by
  have hbare : ∀ field ∈ sampleDocument.fields, field.TypeIsBare := by
    intro field hfield piece hpiece
    rw [List.mem_singleton.mp hfield] at hpiece
    have hblank : piece = .blank ' ' := by
      simpa [TypeTree.pieces, Dimensions.pieces, Gap.pieces] using hpiece
    rw [hblank]
    exact id
  have hwrappers : sampleDocument.ListsWrappers := by
    intro gap tree htree name hname
    have hcomponent : (gap, .component tree) = sampleDocument.items.head (by decide) := by
      simpa [sampleDocument] using htree
    cases hcomponent
    rw [List.mem_singleton.mp hname]
    exact ⟨['A'], by decide, rfl⟩
  exact ⟨hbare, hwrappers,
    File.ofText_layout sampleDocument_wellFormed hbare hwrappers "a.prefs"⟩

/-! ### Names in parsed files -/

/-- A text that is one identifier. -/
def IsSimple (name : String) : Prop := IsIdentifier name.toList

/-- A text that is one identifier or several with dots between them. -/
def IsQualified (name : String) : Prop :=
  ∃ dotted : Dotted, dotted.IsLegal ∧ name = String.ofList dotted.text

/-- An identifier holds no character that identifiers do not have. -/
theorem IsSimple.notMem {name : String} (h : IsSimple name) {c : Char}
    (hc : isIdentifierPart c = false) : c ∉ name.toList := by
  intro hmem
  rw [IsIdentifier.isIdentifierPart h c hmem] at hc
  cases hc

/-- An identifier is not empty. -/
theorem IsSimple.ne_empty {name : String} (h : IsSimple name) : name ≠ "" := by
  rintro rfl
  exact h

/-- A legal name is made of identifiers. -/
theorem Dotted.IsLegal.exists_names {name : Dotted} (h : name.IsLegal) :
    ∃ names : List String, name.string = ".".intercalate names ∧ ∀ part ∈ names, IsSimple part := by
  refine ⟨name.parts, name.string_eq_intercalate, ?_⟩
  intro part hpart
  obtain ⟨text, htext, rfl⟩ := List.mem_map.mp hpart
  rw [IsSimple, String.toList_ofList]
  rcases List.mem_cons.mp htext with rfl | htext
  · exact h.1
  · exact h.2 text htext

/-- A file whose names are made of identifiers; only the package may be missing. -/
structure File.NamesAreLegal (file : File) : Prop where
  package : file.package = "" ∨ IsQualified file.package
  consumers : ∀ consumer ∈ file.classes,
    IsSimple consumer.name ∧ ∀ field ∈ consumer.fields, IsSimple field.name
  components : ∀ entry ∈ file.components,
    IsSimple entry.component.className ∧ (∀ name ∈ entry.component.wrappers, IsSimple name) ∧
      ∀ target ∈ entry.injects, IsQualified target

/-- The target of a legal name is qualified with legal identifiers. -/
theorem Dotted.IsLegal.isQualified_target {name : Dotted} (h : name.IsLegal) {package : String}
    (hpackage : package = "" ∨ IsQualified package) : IsQualified (name.target package) := by
  rw [Dotted.target]
  split
  · next hlone =>
    obtain ⟨dotted, hdotted, rfl⟩ := hpackage.resolve_left hlone.2
    refine ⟨⟨dotted.first, dotted.more ++ [name.first]⟩, ⟨hdotted.1, ?_⟩, ?_⟩
    · intro part hpart
      rcases List.mem_append.mp hpart with hpart | hpart
      · exact hdotted.2 part hpart
      · rw [List.mem_singleton.mp hpart]
        exact h.1
    · have hdot : "." = String.ofList ['.'] := rfl
      rw [hdot, ← String.ofList_append, ← String.ofList_append]
      simp [Dotted.text]
  · exact ⟨name, h, rfl⟩

/-- The names of a class that a legal class declaration declares. -/
theorem ClassTree.Declares.names {tree : ClassTree} {rest : List Char} {package : String}
    {consumer : Consumer} (hlegal : Legal tree.pieces rest)
    (h : tree.Declares package consumer) :
    IsSimple consumer.name ∧ ∀ field ∈ consumer.fields, IsSimple field.name := by
  have hname : IsIdentifier tree.name := hlegal.identifier (by simp [ClassTree.pieces])
  refine ⟨by simpa [IsSimple, h.name] using hname, ?_⟩
  intro field hfield
  obtain ⟨item, hitem, hdeclares⟩ := exists_of_forall₂_mem h.fields hfield
  obtain ⟨r, hfield⟩ := ClassTree.legal_field hlegal item hitem
  have hname : IsIdentifier item.2.name := hfield.identifier (by simp [FieldTree.pieces])
  simpa [IsSimple, hdeclares.name] using hname

/-- The names of a component that a legal component declaration declares. -/
theorem ComponentTree.Declares.names {tree : ComponentTree} {rest : List Char} {package : String}
    {entry : Entry} (hlegal : Legal tree.pieces rest) (h : tree.Declares package entry)
    (hpackage : package = "" ∨ IsQualified package) :
    IsSimple entry.component.className ∧ (∀ name ∈ entry.component.wrappers, IsSimple name) ∧
      ∀ target ∈ entry.injects, IsQualified target := by
  have hname : IsIdentifier tree.name := hlegal.identifier (by simp [ComponentTree.pieces])
  refine ⟨by simpa [IsSimple, h.name] using hname, ?_, ?_⟩
  · intro wrapper hwrapper
    rw [h.wrappers, List.mem_eraseDups, List.mem_map] at hwrapper
    obtain ⟨name, hmem, rfl⟩ := hwrapper
    have hlast := (hlegal.dotted (ComponentTree.dotted_mem_pieces (Or.inl hmem))).last
    simpa [IsSimple] using hlast
  · intro target htarget
    rw [h.injects, List.mem_map] at htarget
    obtain ⟨name, hmem, rfl⟩ := htarget
    exact (hlegal.dotted (ComponentTree.dotted_mem_pieces (Or.inr hmem))).isQualified_target
      hpackage

/-- The names that legal blocks declare. -/
theorem ItemsDeclare.names {package : String} {items : List (Gap × ItemTree)}
    {entries : List Entry} {consumers : List Consumer}
    (h : ItemsDeclare package items entries consumers)
    (hlegal : ∀ item ∈ items, ∃ r, Legal item.2.pieces r)
    (hpackage : package = "" ∨ IsQualified package) :
    (∀ consumer ∈ consumers,
      IsSimple consumer.name ∧ ∀ field ∈ consumer.fields, IsSimple field.name) ∧
    ∀ entry ∈ entries,
      IsSimple entry.component.className ∧ (∀ name ∈ entry.component.wrappers, IsSimple name) ∧
        ∀ target ∈ entry.injects, IsQualified target := by
  induction h with
  | nil => simp
  | component htree _ ih =>
    obtain ⟨⟨r, hitem⟩, hitems⟩ := List.forall_mem_cons.mp hlegal
    obtain ⟨hconsumers, hentries⟩ := ih hitems
    exact ⟨hconsumers, List.forall_mem_cons.mpr ⟨htree.names hitem hpackage, hentries⟩⟩
  | consumer htree _ ih =>
    obtain ⟨⟨r, hitem⟩, hitems⟩ := List.forall_mem_cons.mp hlegal
    obtain ⟨hconsumers, hentries⟩ := ih hitems
    exact ⟨List.forall_mem_cons.mpr ⟨htree.names hitem, hconsumers⟩, hentries⟩

/-- All names of a file that a well-formed document declares are legal. -/
theorem Document.Declares.namesAreLegal {document : Document} (h : document.WellFormed)
    {path : String} {file : File} (hdeclares : document.Declares path file) :
    file.NamesAreLegal := by
  have hpackage : file.package = "" ∨ IsQualified file.package := by
    rw [hdeclares.package]
    cases hclause : document.package with
    | none => exact Or.inl rfl
    | some tree =>
      have hname : tree.name.IsLegal := by
        apply h.legal.dotted
        simp [Document.pieces, hclause, PackageTree.pieces]
      exact Or.inr ⟨tree.name, hname, rfl⟩
  obtain ⟨hconsumers, hentries⟩ := hdeclares.items.names h.item hpackage
  exact ⟨hpackage, hconsumers, hentries⟩

/-- Whatever is parsed is the text of a well-formed document, from its first to its last
character, and results in the file that the document declares, all of whose names are legal. -/
theorem File.exists_layout_of_ofText {path text : String} {file : File}
    (h : (File.ofText path text).outcome = .ok file) :
    ∃ document : Document, document.WellFormed ∧ document.text = text.toList ∧
      document.Declares path file ∧ file.NamesAreLegal := by
  obtain ⟨document, hdocument, hfile⟩ := File.exists_of_ofText h
  obtain ⟨hformed, htext⟩ := Document.of_ofText? hdocument
  have hdeclares := hformed.declares hfile
  exact ⟨document, hformed, htext, hdeclares, hdeclares.namesAreLegal hformed⟩

/-- A class with one field is parsed, so that its text has a layout. -/
theorem File.exists_layout_of_ofText_class :
    (File.ofText "a.prefs" "class A{B b;}").outcome =
      .ok ⟨"a.prefs", "", [], [⟨"", "A", [⟨"b", "B", false⟩]⟩]⟩ ∧
    ∃ document : Document, document.WellFormed ∧ document.text = "class A{B b;}".toList ∧
      document.Declares "a.prefs" ⟨"a.prefs", "", [], [⟨"", "A", [⟨"b", "B", false⟩]⟩]⟩ ∧
      File.NamesAreLegal ⟨"a.prefs", "", [], [⟨"", "A", [⟨"b", "B", false⟩]⟩]⟩ := by
  have hparsed : (File.ofText "a.prefs" "class A{B b;}").outcome =
      .ok ⟨"a.prefs", "", [], [⟨"", "A", [⟨"b", "B", false⟩]⟩]⟩ := by decide +kernel
  exact ⟨hparsed, File.exists_layout_of_ofText hparsed⟩

end PreferenceInjector.Declaration
