import PreferenceInjector.Derive.Item.Reader
import PreferenceInjector.Proofs.Derive.Mirrors
import PreferenceInjector.Proofs.Generation.Reordering
import PreferenceInjector.Proofs.Generation.TypeNames

/-!
# Derived and declared injectors

An injector can be derived for a structure, and it can be generated from a declaration file that
says the same. The two agree except in two cases. A derivation drops the arguments of types, so
that a marked field whose type has arguments can be resolved by it, while the declared field cannot.
And a derivation fails when a name that it has to write is no identifier, of which the generation
knows nothing.
-/

namespace PreferenceInjector

open Declaration
open Derive (Described Expansion Item NamedField NamesAreWritable Path Statement componentOf expand
  operator snakeCase)

/-- The statement fills the same field as the assignment, from the same singleton, and with the
accessor of the same wrapper if with any. -/
structure Derive.Statement.Matches (singleton : Path) (wrappers : List String)
    (statement : Statement) (assignment : Assignment) : Prop where
  field : statement.field = assignment.field
  singleton : ".".intercalate singleton.names = assignment.source.singleton.qualified
  accessor : match assignment.source.accessor with
    | some model => "Preference_" ++ model ∈ wrappers ∧ statement.accessor = some (snakeCase model)
    | none => statement.accessor = none

/-- The derived injector has the same name as the generated one, takes the same structure and fills
the same fields from the same sources, in the same order. -/
structure Derive.Expansion.Matches (wrappers : List String) (expansion : Expansion)
    (injector : Injector) : Prop where
  name : expansion.name = injector.name
  target : expansion.target = injector.parameter.simple
  statements : List.Forall₂ (Statement.Matches expansion.singleton wrappers)
    expansion.statements injector.assignments

/-- An injector is derived exactly when the pass over the source succeeds, and the pass then
generates this injector. -/
structure Derive.Described.Agrees (described : Described) (source : String × String) : Prop where
  accepted : (∃ expansion, expand described.item = .ok expansion) ↔
    ∃ plan, (pass [source]).outcome = .ok plan
  injector : ∀ expansion plan, expand described.item = .ok expansion →
    (pass [source]).outcome = .ok plan →
      ∃ injector, plan = [injector] ∧ expansion.Matches described.wrappers injector

/-- No marked field has a type with arguments. -/
def Derive.Described.TypesAreUnapplied (described : Described) : Prop :=
  ∀ field ∈ described.fields, field.toField.marked = true → field.type.IsUnapplied

/-! ### Files with one class -/

/-- A pass over a component that injects the only class results in the injector of this class. -/
theorem generate_singleton_eq_ok {path package : String} {component : Component}
    {consumer : Consumer} {plan : List Injector} :
    (generate [⟨path, package, [⟨component, [consumer.qualified]⟩], [consumer]⟩]).outcome =
        .ok plan ↔
      ∃ injector, component.Wires consumer injector ∧ plan = [injector] := by
  rw [generate_eq_ok]
  constructor
  · intro h
    obtain ⟨-, -, hanswers⟩ := h
    cases hanswers with
    | cons hanswer hrest =>
      cases hrest
      obtain ⟨found, hfound, -, hwires⟩ := hanswer
      cases List.mem_singleton.mp hfound
      exact ⟨_, hwires, rfl⟩
  · intro h
    obtain ⟨injector, hwires, rfl⟩ := h
    refine ⟨⟨List.nodup_singleton _, List.nodup_singleton _⟩, List.nodup_singleton _, ?_⟩
    exact .cons ⟨consumer, List.mem_singleton_self _, rfl, hwires⟩ .nil

variable {document : Document} {described : Described} {component : ComponentTree}
  {consumer : ClassTree}

namespace Declaration.Document.Mirrors

/-- The package is made of its parts. -/
theorem packageName_eq_intercalate (document : Document) :
    document.packageName = ".".intercalate document.packageParts := by
  rw [Document.packageName, Document.packageParts]
  cases document.package with
  | none => rfl
  | some clause => exact clause.name.string_eq_intercalate

/-- The structure describes the component that is declared. -/
theorem componentOf_eq (h : document.Mirrors described component consumer) :
    componentOf described.path described.wrappers =
      Component.build document.packageName (String.ofList component.name)
        (component.entityNames.map fun name => String.ofList name.last) := by
  rw [componentOf, h.path, h.wrappers, packageName_eq_intercalate, List.dropLast_concat,
    List.getLast?_concat, Option.getD_some]

/-- The component is legal. -/
theorem legal_component (h : document.Mirrors described component consumer) :
    ∃ rest, Legal component.pieces rest := by
  have hmem : component ∈ componentTrees document.items := by simp [h.components]
  obtain ⟨gap, hitem⟩ := mem_componentTrees.mp hmem
  exact h.formed.item _ hitem

/-- The fields of the class are legal. -/
theorem legal_field (h : document.Mirrors described component consumer) :
    ∀ field ∈ consumer.fields, ∃ rest, Legal field.2.pieces rest := by
  have hmem : consumer ∈ classTrees document.items := by simp [h.classes]
  obtain ⟨gap, hitem⟩ := mem_classTrees.mp hmem
  obtain ⟨rest, hlegal⟩ := h.formed.item _ hitem
  exact ClassTree.legal_field hlegal

/-- The component is declared, with the class, when the one that the structure describes can be
built. -/
theorem entry_eq_ok (h : document.Mirrors described component consumer) {entry : Entry} :
    (component.entry document.packageName).outcome = .ok entry ↔
      ∃ found, componentOf described.path described.wrappers = .ok found ∧
        entry = ⟨found, [(consumer.consumer document.packageName).qualified]⟩ := by
  obtain ⟨rest, hlegal⟩ := h.legal_component
  rw [ComponentTree.entry, Reported.outcome_bind_eq_ok, h.componentOf_eq]
  simp only [outcome_declare_eq_ok, ComponentTree.wrappers_eq hlegal,
    ComponentTree.targets_eq hlegal, h.injects, Reported.outcome_pure, Except.ok.injEq,
    @eq_comm _ _ entry]

/-- The text is parsed when the component that the structure describes can be built. -/
theorem ofText_eq_ok (h : document.Mirrors described component consumer) {path : String}
    {file : File} :
    (File.ofText path (String.ofList document.text)).outcome = .ok file ↔
      ∃ found, componentOf described.path described.wrappers = .ok found ∧
        file = ⟨path, document.packageName,
          [⟨found, [(consumer.consumer document.packageName).qualified]⟩],
          [consumer.consumer document.packageName]⟩ := by
  have hbare : ∀ field ∈ document.fields, field.TypeIsBare := by
    intro field hfield
    simp only [Document.fields, h.classes, List.flatMap_cons, List.flatMap_nil, List.append_nil,
      List.mem_map] at hfield
    obtain ⟨item, hitem, rfl⟩ := hfield
    obtain ⟨written, -, hmirrors⟩ := exists_of_forall₂_mem h.fields.flip hitem
    exact hmirrors.bare
  rw [File.ofText_text h.formed, h.formed.settle_file hbare, Document.file,
    Reported.outcome_bind_eq_ok, h.components, h.classes]
  simp only [Reported.outcome_forEach_eq_ok]
  constructor
  · intro hfile
    obtain ⟨entries, hentries, hfile⟩ := hfile
    cases hfile
    cases hentries with
    | cons hentry hrest =>
      cases hrest
      obtain ⟨found, hfound, rfl⟩ := h.entry_eq_ok.mp hentry
      exact ⟨found, hfound, rfl⟩
  · intro hfound
    obtain ⟨found, hfound, rfl⟩ := hfound
    exact ⟨_, .cons (h.entry_eq_ok.mpr ⟨found, hfound, rfl⟩) .nil, rfl⟩

/-- A pass over the text generates the injector of the class. -/
theorem pass_eq_ok (h : document.Mirrors described component consumer) {path : String}
    {plan : List Injector} :
    (pass [(path, String.ofList document.text)]).outcome = .ok plan ↔
      ∃ found injector, componentOf described.path described.wrappers = .ok found ∧
        found.Wires (consumer.consumer document.packageName) injector ∧ plan = [injector] := by
  have hparsed : ∀ files, (parseAll [(path, String.ofList document.text)]).outcome = .ok files ↔
      ∃ file, (File.ofText path (String.ofList document.text)).outcome = .ok file ∧
        files = [file] := by
    intro files
    rw [parseAll, Reported.outcome_forEach_eq_ok, List.forall₂_cons_left_iff]
    simp only [List.forall₂_nil_left_iff, exists_and_left, exists_eq_left]
  rw [pass, Reported.outcome_bind_eq_ok]
  simp only [hparsed, h.ofText_eq_ok]
  constructor
  · intro hpass
    obtain ⟨files, ⟨file, ⟨found, hfound, rfl⟩, rfl⟩, hplan⟩ := hpass
    obtain ⟨injector, hwires, rfl⟩ := generate_singleton_eq_ok.mp hplan
    exact ⟨found, injector, hfound, hwires, rfl⟩
  · intro hpass
    obtain ⟨found, injector, hfound, hwires, rfl⟩ := hpass
    exact ⟨_, ⟨_, ⟨found, hfound, rfl⟩, rfl⟩,
      generate_singleton_eq_ok.mpr ⟨injector, hwires, rfl⟩⟩

/-- The names of the component are identifiers. -/
theorem namesAreSimple (h : document.Mirrors described component consumer) {found : Component}
    (hfound : componentOf described.path described.wrappers = .ok found) :
    found.NamesAreSimple := by
  obtain ⟨rest, hlegal⟩ := h.legal_component
  rw [h.componentOf_eq, ← outcome_declare_eq_ok] at hfound
  obtain ⟨-, hname, hwrappers⟩ := declare_eq_ok hfound
  refine ⟨?_, ?_⟩
  · rw [hname, IsSimple, String.toList_ofList]
    exact hlegal.identifier (by simp [ComponentTree.pieces])
  · intro wrapper hwrapper
    rw [hwrappers, mem_firstSeen, List.mem_map] at hwrapper
    obtain ⟨name, hname, rfl⟩ := hwrapper
    rw [IsSimple, String.toList_ofList]
    exact (hlegal.dotted (ComponentTree.dotted_mem_pieces (Or.inl hname))).last

/-- The declared class differs from the structure as a class in the types of its fields only. -/
theorem isRetyped (h : document.Mirrors described component consumer) :
    List.Forall₂ Field.IsRetyped (consumer.consumer document.packageName).fields
      described.consumer.fields := by
  change List.Forall₂ _ (consumer.fields.map _) (described.fields.map _)
  rw [List.forall₂_map_left_iff, List.forall₂_map_right_iff]
  apply forall₂_imp_of_mem h.fields
  intro item hitem field _ hmirrors
  obtain ⟨rest, hlegal⟩ := h.legal_field item hitem
  exact hmirrors.isRetyped hlegal

/-- A declared field resolves when it does as a field of the structure and has no arguments. -/
theorem resolves_field_iff (h : document.Mirrors described component consumer) {found : Component}
    (hfound : componentOf described.path described.wrappers = .ok found) {item : Gap × FieldTree}
    (hitem : item ∈ consumer.fields) {field : NamedField} (hfield : item.2.Mirrors field) :
    (item.2.field.marked = true → found.Resolves item.2.field) ↔
      (field.toField.marked = true → found.Resolves field.toField ∧ field.type.IsUnapplied) := by
  obtain ⟨rest, hlegal⟩ := h.legal_field item hitem
  rw [(hfield.isRetyped hlegal).2]
  rcases hfield.declared hlegal with ⟨hunapplied, htype⟩ | ⟨happlied, hname⟩
  · simp [Component.Resolves, htype, hunapplied]
  · simp [(h.namesAreSimple hfound).not_resolves hname, happlied]

/-- The declared fields resolve when those of the structure do and have no arguments. -/
theorem resolves_iff (h : document.Mirrors described component consumer) {found : Component}
    (hfound : componentOf described.path described.wrappers = .ok found) :
    (∀ field ∈ (consumer.consumer document.packageName).fields, field.marked = true →
        found.Resolves field) ↔
      (∀ field ∈ described.consumer.fields, field.marked = true → found.Resolves field) ∧
        described.TypesAreUnapplied := by
  have hfields := forall_mem_iff_of_forall₂ h.fields fun item hitem field _ hfield =>
    h.resolves_field_iff hfound hitem hfield
  simp only [imp_and, forall_and] at hfields
  change (∀ field ∈ consumer.fields.map (·.2.field), field.marked = true → _) ↔
    (∀ field ∈ described.fields.map (·.toField), field.marked = true → _) ∧ _
  rw [List.forall_mem_map, List.forall_mem_map]
  exact hfields

/-- A pass over the text succeeds when all marked fields resolve and none has arguments. -/
theorem exists_pass (h : document.Mirrors described component consumer) {path : String} :
    (∃ plan, (pass [(path, String.ofList document.text)]).outcome = .ok plan) ↔
      ∃ found, componentOf described.path described.wrappers = .ok found ∧
        (∀ field ∈ described.consumer.fields, field.marked = true → found.Resolves field) ∧
        described.TypesAreUnapplied := by
  simp only [h.pass_eq_ok]
  constructor
  · intro hpass
    obtain ⟨plan, found, injector, hfound, hwires, -⟩ := hpass
    exact ⟨found, hfound, (h.resolves_iff hfound).mp (Component.exists_wires.mp ⟨injector, hwires⟩)⟩
  · intro hpass
    obtain ⟨found, hfound, hresolves⟩ := hpass
    obtain ⟨injector, hwires⟩ := Component.exists_wires.mpr ((h.resolves_iff hfound).mpr hresolves)
    exact ⟨[injector], found, injector, hfound, hwires, rfl⟩

/-- The marked fields of the declared class keep the names that their types have without
arguments. -/
theorem keepsNames (h : document.Mirrors described component consumer)
    (hunapplied : described.TypesAreUnapplied) :
    List.Forall₂ Field.KeepsName (consumer.consumer document.packageName).fields
      described.consumer.fields := by
  change List.Forall₂ _ (consumer.fields.map _) (described.fields.map _)
  rw [List.forall₂_map_left_iff, List.forall₂_map_right_iff]
  apply forall₂_imp_of_mem h.fields
  intro item hitem field hfield hmirrors hmarked
  obtain ⟨rest, hlegal⟩ := h.legal_field item hitem
  rw [(hmirrors.isRetyped hlegal).2] at hmarked
  rcases hmirrors.declared hlegal with ⟨-, htype⟩ | ⟨happlied, -⟩
  · rw [htype]
  · exact (happlied (hunapplied field hfield hmarked)).elim

/-- A class of the package is qualified by its parts. -/
theorem qualify_packageName (h : document.Mirrors described component consumer) (name : String) :
    ".".intercalate (document.packageParts ++ [name]) = qualify document.packageName name := by
  rw [packageName_eq_intercalate, Document.packageParts]
  cases hclause : document.package with
  | none => rfl
  | some clause =>
    have hlegal : clause.name.IsLegal :=
      h.formed.legal.dotted (by simp [Document.pieces, hclause, PackageTree.pieces])
    obtain ⟨c, first, hfirst, -⟩ := hlegal.1.exists_cons
    have hname : clause.name.string.isEmpty = false := by
      simp [Dotted.string, Dotted.text, hfirst]
    have hparts : clause.name.parts ≠ [] := by simp [Dotted.parts]
    rw [Option.map_some, Option.getD_some,
      String.intercalate_append_of_ne_nil hparts (List.cons_ne_nil _ _),
      String.intercalate_singleton, ← clause.name.string_eq_intercalate, qualify, hname]
    rfl

/-- A statement that writes an assignment matches it. -/
theorem statement_matches (h : document.Mirrors described component consumer) {found : Component}
    (hfound : componentOf described.path described.wrappers = .ok found) {field : Field}
    {statement : Statement} {assignment : Assignment} (hwrites : statement.Writes assignment)
    (hfills : found.Fills field assignment) :
    statement.Matches (described.path.renamed fun _ => found.singletonName) described.wrappers
      assignment := by
  rw [h.componentOf_eq, ← outcome_declare_eq_ok] at hfound
  obtain ⟨hpackage, -, hwrappers⟩ := declare_eq_ok hfound
  refine ⟨hwrites.field, ?_, ?_⟩
  · rw [Path.names_renamed h.path, h.qualify_packageName, hfills.singleton, hpackage]
    rfl
  · have haccessor := hfills.accessor
    have hwritten := hwrites.accessor
    cases hcase : assignment.source.accessor with
    | some model =>
      rw [hcase] at haccessor hwritten
      obtain ⟨howned, hname⟩ := haccessor
      rw [hwrappers, mem_firstSeen, h.wrappers, hname] at howned
      exact ⟨howned, hwritten⟩
    | none =>
      rw [hcase] at hwritten
      exact hwritten

/-- An injector that is derived is the one that the pass generates. -/
theorem exists_matches (h : document.Mirrors described component consumer) {path : String}
    {expansion : Expansion} {plan : List Injector}
    (hexpand : expand described.item = .ok expansion)
    (hpass : (pass [(path, String.ofList document.text)]).outcome = .ok plan) :
    ∃ injector, plan = [injector] ∧ expansion.Matches described.wrappers injector := by
  obtain ⟨found, hfound, hresolves, hunapplied⟩ := h.exists_pass.mp ⟨plan, hpass⟩
  obtain ⟨found', injector, hfound', hwires, rfl⟩ := h.pass_eq_ok.mp hpass
  obtain ⟨found'', derived, statements, hfound'', hderived, -, hstatements, rfl⟩ :=
    Derive.expand_eq_ok.mp hexpand
  cases hfound.symm.trans hfound'
  cases hfound.symm.trans hfound''
  -- The generated assignments fill the fields of the structure, so they are the derived ones.
  have hfills := fills_of_keepsNames h.isRetyped (h.keepsNames hunapplied) hwires.assignments
  have hsame : { derived with assignments := injector.assignments } = derived :=
    Component.Wires.unique
      ⟨hderived.inPackage, hderived.name, hderived.parameter, hderived.singleton, hfills⟩ hderived
  have hassignments : injector.assignments = derived.assignments := congrArg (·.assignments) hsame
  refine ⟨injector, rfl, ?_, ?_, ?_⟩
  · exact hderived.name.trans ((congrArg (· ++ "_Injector") h.name).symm.trans hwires.name.symm)
  · exact h.name.symm.trans (congrArg (·.simple) hwires.parameter).symm
  · rw [hassignments]
    apply forall₂_imp_of_mem hstatements.flip
    intro statement _ assignment hassignment hwrites
    obtain ⟨field, -, hfills⟩ := exists_of_forall₂_mem hderived.assignments hassignment
    exact h.statement_matches hfound hwrites hfills

end Declaration.Document.Mirrors

/-- A derivation and a pass over the declaration file that says the same agree unless all marked
fields resolve by the names of their types. In that case they agree when both or neither of these
holds: no marked type has arguments, so that the pass succeeds too; and all names to be written are
identifiers, so that the injector can be derived. -/
theorem Derive.Described.agrees_iff (h : document.Mirrors described component consumer)
    (path : String) :
    described.Agrees (path, String.ofList document.text) ↔
      ∀ found, componentOf described.path described.wrappers = .ok found →
        (∀ field ∈ described.consumer.fields, field.marked = true → found.Resolves field) →
          (described.TypesAreUnapplied ↔ NamesAreWritable found described.consumer) := by
  constructor
  · intro hagrees found hfound hresolves
    have haccepted := hagrees.accepted
    rw [Derive.exists_expand, h.exists_pass] at haccepted
    constructor
    · intro hunapplied
      obtain ⟨other, hother, -, hwritable⟩ :=
        haccepted.mpr ⟨found, hfound, hresolves, hunapplied⟩
      cases hfound.symm.trans hother
      exact hwritable
    · intro hwritable
      obtain ⟨other, hother, -, hunapplied⟩ :=
        haccepted.mp ⟨found, hfound, hresolves, hwritable⟩
      exact hunapplied
  · intro hcondition
    refine ⟨?_, fun expansion plan => h.exists_matches⟩
    rw [Derive.exists_expand, h.exists_pass]
    constructor
    · intro hexpand
      obtain ⟨found, hfound, hresolves, hwritable⟩ := hexpand
      exact ⟨found, hfound, hresolves, (hcondition found hfound hresolves).mpr hwritable⟩
    · intro hpass
      obtain ⟨found, hfound, hresolves, hunapplied⟩ := hpass
      exact ⟨found, hfound, hresolves, (hcondition found hfound hresolves).mp hunapplied⟩

/-! ### A type with an argument -/

/-- A structure with a field whose type has an argument. -/
def genericSource : String :=
  "#[injector(component = \"C\", wrappers(Preference_B))] " ++
    "struct K<T> \x7b #[inject_preference] b: Preference_B<T> \x7d"

/-- The field of the structure. -/
def genericField : NamedField where
  attributes := [⟨.ofNames false ["inject_preference"], .bare⟩]
  name := "b"
  type := .path ⟨false, [⟨"Preference_B", operator "<" ++ [.name "T"] ++ operator ">"⟩]⟩

/-- The definition that is read from the source. -/
def genericItem : Item where
  attributes := [⟨.ofNames false ["injector"], .list
    [.name "component", .mark '=' false, .literal "\"C\"", .mark ',' false,
      .name "wrappers", .group .round [.name "Preference_B"]]⟩]
  visibility := []
  name := "K"
  parameters := [(⟨false, .name "T", [.name "T"]⟩, false)]
  conditions := []
  shape := .named [genericField]

/-- The structure with its component. -/
def genericStructure : Described where
  item := genericItem
  fields := [genericField]
  path := .ofNames false ["C"]
  wrappers := ["Preference_B"]
  shape := rfl
  arguments := by decide +kernel

/-- The declaration of its component. -/
def genericComponent : ComponentTree where
  beforeName := [.blank ' ']
  name := ['C']
  beforeBody := []
  entries := [
    ([], .entities ⟨[.blank ' '], ⟨"Preference_B".toList, []⟩, []⟩ []),
    ([], .inject ⟨[.blank ' '], ⟨['K'], []⟩, []⟩ [])]
  beforeEnd := []

/-- The declaration of the structure as a class. -/
def genericClass : ClassTree where
  beforeName := [.blank ' ']
  name := ['K']
  beforeBody := []
  fields := [([], {
    decorations := [([], .annotated [] ⟨"InjectPreference".toList, []⟩ [.blank ' '] none)]
    beforeType := []
    type := .applied ⟨"Preference_B".toList, []⟩ [] (.last [] (.plain ⟨['T'], []⟩ [] []) []) [] []
    beforeName := [.blank ' '], name := ['b'], beforeEnd := [] })]
  beforeEnd := []

/-- The declaration file that says the same. -/
def genericDocument : Document where
  atStart := []
  package := none
  items := [([], .component genericComponent), ([], .consumer genericClass)]
  atEnd := []

/-- The declaration file says what the structure says. -/
theorem mirrors_generic :
    genericDocument.Mirrors genericStructure genericComponent genericClass where
  formed := by decide
  components := rfl
  classes := rfl
  path := by decide
  wrappers := by decide
  injects := by decide
  name := rfl
  fields := by
    refine .cons ⟨rfl, .applied .., ?_, ?_⟩ .nil
    · intro piece hpiece
      have hblank : piece = .blank ' ' := by
        simpa [TypeTree.pieces, TypeListTree.pieces, Dimensions.pieces, Gap.pieces] using hpiece
      rw [hblank]
      exact id
    · exact ⟨fun _ => ⟨_, List.mem_singleton_self _, by decide⟩,
        fun _ => ⟨_, List.mem_singleton_self _, rfl⟩⟩

/-- The structure is read from its source, and the cases of the theorem decide whether it agrees
with its declaration. -/
theorem Derive.Described.agrees_iff_generic :
    Item.ofText? genericSource = some genericStructure.item ∧
    genericDocument.Mirrors genericStructure genericComponent genericClass ∧
      (genericStructure.Agrees ("a.prefs", String.ofList genericDocument.text) ↔
        ∀ found, componentOf genericStructure.path genericStructure.wrappers = .ok found →
          (∀ field ∈ genericStructure.consumer.fields,
            field.marked = true → found.Resolves field) →
              (genericStructure.TypesAreUnapplied ↔
                NamesAreWritable found genericStructure.consumer)) :=
  ⟨by decide +kernel, mirrors_generic, Derive.Described.agrees_iff mirrors_generic "a.prefs"⟩

/-- A derivation and a pass do not always agree: the structure has an injector, which fills the
field with the wrapper, and its declaration is refused. -/
theorem derivation_drops_arguments :
    ¬ ∀ described document component consumer,
      Document.Mirrors document described component consumer →
        ∀ path, described.Agrees (path, String.ofList document.text) := by
  intro h
  have hexpand : expand genericStructure.item = .ok {
      visibility := [], name := "K_Injector", target := "K"
      parameters := [(⟨false, .name "T", [.name "T"]⟩, false)], conditions := []
      singleton := .ofNames false ["PreferenceComponent_C"]
      statements := [⟨"b", some "b"⟩] } := by
    decide +kernel
  have hpass := (h _ _ _ _ mirrors_generic "a.prefs").accepted.mp ⟨_, hexpand⟩
  obtain ⟨-, -, -, hunapplied⟩ := mirrors_generic.exists_pass.mp hpass
  have hnone := hunapplied _ (List.mem_singleton_self _) (by decide) _ (List.mem_singleton_self _)
  cases hnone

end PreferenceInjector
