import PreferenceInjector.Proofs.Declaration.TypeTexts
import PreferenceInjector.Proofs.Generation.Comments
import PreferenceInjector.Proofs.Generation.SimpleNames

/-!
# Which declared types resolve

Of the types that can be written in a declaration file only names resolve. A type is cut at the
last dot of its whole text, and that dot may lie deep inside its arguments, so what is cut off can
start with the name of a wrapper. It still ends in the bracket that closes the type, and the names
of wrappers and singletons are identifiers in a parsed file. A comment inside or behind the type is
part of its text and is left out of account here.
-/

namespace PreferenceInjector

open Declaration

/-- The last identifier of a name is that of an owned wrapper or of the singleton. -/
def Component.Knows (component : Component) (name : Dotted) : Prop :=
  String.ofList name.last ∈ component.wrappers ∨
    String.ofList name.last = "PreferenceComponent_" ++ component.className

/-- The fields of a declared class, marked or not, resolve for the component exactly when their
types, as they are derived, are names that the component knows; so no type with arguments or array
dimensions does. Only fields with a comment inside or behind the type may be different. -/
def Component.ResolvesNamesOnly (component : Component) (tree : ClassTree) (consumer : Consumer) :
    Prop :=
  List.Forall₂ (fun item field => item.2.TypeIsBare →
      ((∃ resolution, component.resolve? field.type = some resolution) ↔
        ∃ name, item.2.type.IsName name ∧ component.Knows name) ∧
      (item.2.type.HasArguments ∨ item.2.type.dimensions ≠ [] →
        component.resolve? field.type = none))
    tree.fields consumer.fields

/-- The names of a component are identifiers. -/
structure Component.NamesAreSimple (component : Component) : Prop where
  className : IsSimple component.className
  wrappers : ∀ wrapper ∈ component.wrappers, IsSimple wrapper

variable {component : Component} {field : Field}

/-- No field resolves when its simple type name is no identifier. -/
theorem Component.NamesAreSimple.not_resolves (h : component.NamesAreSimple)
    (hpart : ∃ c ∈ (simpleName field.type).toList, isIdentifierPart c = false) :
    ¬ component.Resolves field := by
  obtain ⟨c, hmem, hc⟩ := hpart
  rintro (howned | hsingleton)
  · exact (h.wrappers _ howned).notMem hc hmem
  · have hstem : ∀ c ∈ "PreferenceComponent_".toList, isIdentifierPart c = true := by
      simp [isIdentifierPart]
    rw [hsingleton, String.toList_append, List.mem_append] at hmem
    rcases hmem with hmem | hmem
    · cases (hstem c hmem).symm.trans hc
    · exact h.className.notMem hc hmem

/-- The components of a parsed file have identifiers as names. -/
theorem namesAreSimple_of_ofText {path text : String} {file : File}
    (h : (File.ofText path text).outcome = .ok file) :
    ∀ entry ∈ file.components, entry.component.NamesAreSimple := by
  obtain ⟨document, hdocument, hfile⟩ := File.exists_of_ofText h
  have hformed := (Document.of_ofText? hdocument).1
  intro entry hentry
  obtain ⟨hclass, hwrappers, -⟩ :=
    ((hformed.declares hfile).namesAreLegal hformed).components entry hentry
  exact ⟨hclass, hwrappers⟩

/-- A declared field resolves exactly when its type is a name that the component knows. -/
theorem Component.NamesAreSimple.resolves_iff (h : component.NamesAreSimple) {tree : FieldTree}
    {rest : List Char} (hlegal : Legal tree.pieces rest) (hbare : tree.TypeIsBare) :
    component.Resolves tree.field ↔ ∃ name, tree.type.IsName name ∧ component.Knows name := by
  obtain ⟨r, htype⟩ := FieldTree.legal_type hlegal
  have hbareType : ∀ piece, .skipped piece ∈ tree.type.pieces → ¬ piece.IsComment :=
    fun piece hpiece => hbare piece (List.mem_append_left _ hpiece)
  have hknows : ∀ name, tree.type.IsName name →
      (component.Resolves tree.field ↔ component.Knows name) := by
    intro name hname
    have hsimple : simpleName tree.field.type = String.ofList name.last :=
      hname.simpleName htype hbareType
    rw [Component.Resolves, hsimple, Component.Knows]
  -- A name resolves by its last identifier; of other types the simple name is no identifier.
  by_cases hname : ∃ name, tree.type.IsName name
  · obtain ⟨name, hname⟩ := hname
    constructor
    · intro hresolves
      exact ⟨name, hname, (hknows name hname).mp hresolves⟩
    · intro hknown
      obtain ⟨other, hother, hknown⟩ := hknown
      exact (hknows other hother).mpr hknown
  · have hnot : ¬ component.Resolves tree.field :=
      h.not_resolves (TypeTree.exists_mem_simpleName htype hbareType (not_exists.mp hname))
    simp only [hnot, false_iff]
    rintro ⟨name, hother, -⟩
    exact hname ⟨name, hother⟩

/-- The fields of a legal class resolve by their names only. -/
theorem Component.NamesAreSimple.resolvesNamesOnly (h : component.NamesAreSimple)
    {tree : ClassTree} {rest : List Char} (hlegal : Legal tree.pieces rest) (package : String) :
    component.ResolvesNamesOnly tree (tree.consumer package) := by
  rw [Component.ResolvesNamesOnly, ClassTree.consumer, List.forall₂_map_right_iff,
    List.forall₂_same]
  intro item hitem hbare
  obtain ⟨r, hfield⟩ := ClassTree.legal_field hlegal item hitem
  have hresolves := h.resolves_iff hfield hbare
  have hfound : (∃ resolution, component.resolve? item.2.field.type = some resolution) ↔
      component.Resolves item.2.field := Component.exists_resolve?_iff
  refine ⟨hfound.trans hresolves, ?_⟩
  intro hwritten
  rw [Option.eq_none_iff_forall_ne_some]
  intro resolution hresolution
  obtain ⟨name, hname, -⟩ := hresolves.mp (hfound.mp ⟨resolution, hresolution⟩)
  exact TypeTree.not_isName hwritten name hname

/-- The classes of a file that is built from a document are those of its class declarations. -/
theorem classes_of_file {document : Document} {path : String} {file : File}
    (h : (document.file path).outcome = .ok file) :
    file.classes = (classTrees document.items).map (ClassTree.consumer document.packageName) := by
  rw [Document.file, Reported.outcome_bind_eq_ok] at h
  obtain ⟨entries, -, hfile⟩ := h
  cases hfile
  rfl

/-- For every component of a parsed file, the fields of the classes of the same or another parsed
file resolve by their names only. -/
theorem resolvesNamesOnly_of_ofText {path text otherPath otherText : String} {file other : File}
    (h : (File.ofText path text).outcome = .ok file)
    (hother : (File.ofText otherPath otherText).outcome = .ok other) :
    ∃ document, Document.ofText? text.toList = some document ∧
      ∀ entry ∈ other.components,
        List.Forall₂ entry.component.ResolvesNamesOnly (classTrees document.items)
          file.classes := by
  obtain ⟨document, hdocument, hfile⟩ := File.exists_of_ofText h
  have hformed := (Document.of_ofText? hdocument).1
  refine ⟨document, hdocument, ?_⟩
  intro entry hentry
  rw [classes_of_file hfile, List.forall₂_map_right_iff, List.forall₂_same]
  intro tree htree
  obtain ⟨gap, hitem⟩ := mem_classTrees.mp htree
  obtain ⟨r, hlegal⟩ := hformed.item _ hitem
  exact (namesAreSimple_of_ofText hother entry hentry).resolvesNamesOnly hlegal _

/-- A marked field with the given type and name. -/
def markedField (type : TypeTree) (beforeName : Gap) (name : List Char) : FieldTree where
  decorations := [([], .annotated [] ⟨"InjectPreference".toList, []⟩ [.blank ' '] none)]
  beforeType := []
  type := type
  beforeName := beforeName
  name := name
  beforeEnd := []

/-- A component with one wrapper, and its class with three marked fields: of the type of the
wrapper, with its package; of a list of such; and of an array of such. -/
def typesDocument : Document where
  atStart := []
  package := none
  items := [
    ([], .component {
      beforeName := [.blank ' '], name := ['C'], beforeBody := []
      entries := [
        ([], .entities ⟨[.blank ' '], ⟨"Preference_B".toList, []⟩, []⟩ []),
        ([], .inject ⟨[.blank ' '], ⟨['K'], []⟩, []⟩ [])]
      beforeEnd := [] }),
    ([], .consumer {
      beforeName := [.blank ' '], name := ['K'], beforeBody := []
      fields := [
        ([], markedField (.plain ⟨['a'], ["Preference_B".toList]⟩ [.blank ' '] []) [] ['b']),
        ([], markedField (.applied ⟨"List".toList, []⟩ []
          (.last [] (.plain ⟨['a'], ["Preference_B".toList]⟩ [] []) []) [.blank ' '] []) [] ['c']),
        ([], markedField (.plain ⟨"Preference_B".toList, []⟩ [] [([], [])]) [.blank ' '] ['d'])]
      beforeEnd := [] })]
  atEnd := []

/-- The file that the document declares. -/
def typesFile : File :=
  { fileWithType "a.Preference_B" with
    classes := [⟨"", "K", [⟨"b", "a.Preference_B", true⟩, ⟨"c", "List<a.Preference_B>", true⟩,
      ⟨"d", "Preference_B[]", true⟩]⟩] }

/-- The fields of the document resolve by their names only. -/
theorem resolvesNamesOnly_of_ofText_sample :
    (File.ofText "a.prefs" (String.ofList typesDocument.text)).outcome = .ok typesFile ∧
      ∃ document, Document.ofText? (String.ofList typesDocument.text).toList = some document ∧
        ∀ entry ∈ typesFile.components,
          List.Forall₂ entry.component.ResolvesNamesOnly (classTrees document.items)
            typesFile.classes := by
  have hformed : typesDocument.WellFormed := by decide
  have hparsed : (File.ofText "a.prefs" (String.ofList typesDocument.text)).outcome =
      .ok typesFile := by
    rw [File.ofText_text hformed]
    decide +kernel
  exact ⟨hparsed, resolvesNamesOnly_of_ofText hparsed hparsed⟩

end PreferenceInjector
