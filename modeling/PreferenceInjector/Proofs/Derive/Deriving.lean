import PreferenceInjector.Proofs.Derive.Accessors
import PreferenceInjector.Proofs.Derive.ReadItems
import PreferenceInjector.Proofs.Derive.SupportedForm
import PreferenceInjector.Proofs.Generation.Components

/-!
# What is derived for a text

An injector is derived for the type definition that a text is when the definition is a structure
with named fields whose attribute describes a component with wrappers, and when the type of every
marked field ends in a listed wrapper or in the component's singleton. Its constructor then assigns
the marked fields, one after another, from the singleton. The names that are generated have to be
identifiers; nothing else is assumed of the text.
-/

namespace PreferenceInjector.Derive

open Declaration

/-- The field has an attribute that is named `inject_preference` and nothing else. -/
def NamedField.IsMarked (field : NamedField) : Prop :=
  ∃ found ∈ field.attributes, found.path.name? = some "inject_preference"

instance (field : NamedField) : Decidable field.IsMarked :=
  inferInstanceAs (Decidable (∃ found ∈ field.attributes, _))

/-- The type is a plain path that ends in a listed wrapper or in the singleton of the component. -/
def FieldType.IsSupplied (type : FieldType) (path : Path) (wrappers : List String) : Prop :=
  (∃ wrapper ∈ wrappers, type.IsPathTo wrapper) ∨
    type.IsPathTo ("PreferenceComponent_" ++ path.lastName)

/-- The definition is a structure with the named fields, its attribute describes the component with
wrappers only, and the component supplies the types of the marked fields. -/
structure Item.IsSupplied (item : Item) (fields : List NamedField) (path : Path)
    (wrappers : List String) : Prop where
  shape : item.shape = .named fields
  described : item.DescribesComponent path wrappers
  named : ∀ wrapper ∈ wrappers, NamesWrapper wrapper
  supplied : ∀ field ∈ fields, field.IsMarked → field.type.IsSupplied path wrappers

/-- A marked field has the listed wrapper of the model as its type. -/
def Item.Uses (item : Item) (model : String) : Prop :=
  ∃ fields path wrappers, item.shape = .named fields ∧ item.DescribesComponent path wrappers ∧
    NamesWrapper ("Preference_" ++ model) ∧ "Preference_" ++ model ∈ wrappers ∧
      ∃ field ∈ fields, field.IsMarked ∧ field.type.IsPathTo ("Preference_" ++ model)

/-- The names that are generated are identifiers: that of the singleton, and the snake case of the
models that are used. -/
structure Item.NamesAreIdentifiers (item : Item) : Prop where
  singleton : ∀ path wrappers, item.DescribesComponent path wrappers →
    isIdentifier ("PreferenceComponent_" ++ path.lastName).toList = true
  accessors : ∀ model, item.Uses model → isIdentifier (snakeCase model).toList = true

/-- What stands before the assigned value: the field of the object. -/
def assigned (field : NamedField) : List Token :=
  [.name "inject_object", .mark '.' false, .name field.name, .mark '=' false]

/-- The singleton: the path of the component with the last segment renamed, and the call. -/
def fetched (path : Path) : List Token :=
  (path.renamed ("PreferenceComponent_" ++ ·)).tokens ++
    [.mark ':' true, .mark ':' false, .name "get_instance", .group .round []]

/-- The tokens assign the field from the singleton: with the accessor of the wrapper that is its
type, in snake case, or with the singleton itself. -/
inductive Assigns (path : Path) (wrappers : List String) (field : NamedField) : List Token → Prop
  | wrapper {model : String} (hlisted : "Preference_" ++ model ∈ wrappers)
      (htype : field.type.IsPathTo ("Preference_" ++ model)) :
      Assigns path wrappers field (assigned field ++ fetched path ++
        [.mark '.' false, .name (snakeCase model), .group .round [], .mark ';' false])
  | singleton (htype : field.type.IsPathTo ("PreferenceComponent_" ++ path.lastName)) :
      Assigns path wrappers field (assigned field ++ fetched path ++ [.mark ';' false])

/-- The body of the constructor is one assignment for each marked field, in order, and assigns no
other fields. -/
structure Expansion.FillsMarked (expansion : Expansion) (fields : List NamedField) (path : Path)
    (wrappers : List String) : Prop where
  body : ∃ front signature statements, expansion.tokens =
    front ++ [.group .curly (signature ++ [.group .curly (statements.flatten ++ [.name "Self"])])] ∧
    List.Forall₂ (Assigns path wrappers) (fields.filter (·.IsMarked)) statements
  fields : expansion.statements.map (·.field) = (fields.filter (·.IsMarked)).map (·.name)

/-! ### Words -/

variable {item : Item} {fields : List NamedField} {path : Path} {wrappers : List String}

/-- What is written with commas is written with some of the tokens. -/
theorem InCommas.exists_subset {α : Type} {IsWrittenAs : α → List Token → Prop} {values : List α}
    {tokens : List Token} (h : InCommas IsWrittenAs values tokens) :
    ∀ value ∈ values, ∃ written ⊆ tokens, IsWrittenAs value written := by
  induction h with
  | last h => exact List.forall_mem_singleton.mpr ⟨_, List.Subset.refl _, h⟩
  | comma h joint => exact List.forall_mem_singleton.mpr ⟨_, List.subset_append_left _ _, h⟩
  | @more value values written rest h joint _ ih =>
    refine List.forall_mem_cons.mpr ⟨⟨_, List.subset_append_left _ _, h⟩, fun other hother => ?_⟩
    obtain ⟨found, hfound, hother⟩ := ih other hother
    have hrest : rest ⊆ written ++ .mark ',' joint :: rest :=
      List.subset_append_of_subset_right _ (List.subset_cons_self _ _)
    exact ⟨found, List.Subset.trans hfound hrest, hother⟩

/-- The names of listed wrappers are words. -/
theorem Item.IsLexed.isWord_wrapper (hitem : item.IsLexed)
    (h : item.DescribesComponent path wrappers) : ∀ wrapper ∈ wrappers, IsWord wrapper := by
  obtain ⟨before, found, after, content, arguments, hattributes, -, -, hlist, hcontent, -, rfl⟩ := h
  have hlexed := hitem.attributes found (hattributes ▸ List.mem_append_right _ List.mem_cons_self)
    content hlist
  intro wrapper hwrapper
  obtain ⟨argument, hargument, hwrapper⟩ := List.mem_flatMap.mp hwrapper
  obtain ⟨written, hwritten, hform⟩ := hcontent.exists_subset argument hargument
  cases hform with
  | component => cases hwrapper
  | @wrappers names inner hnames =>
    have hgroup : Token.group .round inner ∈ content := hwritten (by simp)
    obtain ⟨tokens, htokens, rfl⟩ := hnames.exists_subset wrapper hwrapper
    cases hlexed _ hgroup with
    | group _ hinner =>
      cases hinner _ (htokens List.mem_cons_self) with
      | name hword => exact hword

/-- The last segment of the path of a component is named by a word. -/
theorem isWord_lastName (h : item.DescribesComponent path wrappers) : IsWord path.lastName := by
  obtain ⟨_, _, _, _, arguments, -, -, -, -, hcontent, hpath, -⟩ := h
  obtain ⟨argument, hargument, hgives⟩ := List.mem_filterMap.mp (List.mem_of_getLast? hpath)
  obtain ⟨written, -, hform⟩ := hcontent.exists_subset argument hargument
  cases hform with
  | wrappers => cases hgives
  | component hliteral =>
    cases hgives
    obtain ⟨value, tokens, -, htokens, hpath⟩ := hliteral
    have hspelled : ∀ token ∈ tokens, token.IsSpelled :=
      fun token htoken => (isLexed_of_tokensOf? htokens token htoken).isSpelled
    obtain ⟨hne, hwords⟩ := isWord_of_pathOf leavesTokens_angledArguments hspelled hpath
    rw [Path.lastName, List.getLast?_eq_some_getLast hne]
    exact hwords _ (List.getLast_mem hne)

/-- No white space starts a name. -/
theorem isWhiteSpace_of_startsName {c : Char} (h : startsName c = true) :
    isWhiteSpace c = false := by
  rw [← Bool.not_eq_true]
  intro hblank
  have hcodes : ∀ n ∈ [9, 10, 11, 12, 13, 0x20, 0x85, 0xA0, 0x1680, 0x2000, 0x2001, 0x2002, 0x2003,
      0x2004, 0x2005, 0x2006, 0x2007, 0x2008, 0x2009, 0x200A, 0x2028, 0x2029, 0x202F, 0x205F,
      0x3000], startsName (Char.ofNat n) = false := by
    decide +kernel
  have hname : startsName (Char.ofNat c.toNat) = false := by
    apply hcodes
    simp only [isWhiteSpace, Bool.or_eq_true, Bool.and_eq_true, decide_eq_true_eq, beq_iff_eq]
      at hblank
    simp only [List.mem_cons, List.not_mem_nil, or_false]
    omega
  rw [Char.ofNat_toNat, h] at hname
  cases hname

/-- A word can be seen. -/
theorem IsWord.isVisible {name : String} (h : IsWord name) : isVisible name = true := by
  rw [isVisible_iff]
  rcases h with h | ⟨plain, rfl, -⟩
  · cases hname : name.toList with
    | nil =>
      rw [hname] at h
      cases h
    | cons c rest =>
      rw [hname, isIdentifier, Bool.and_eq_true] at h
      exact ⟨c, List.mem_cons_self, isWhiteSpace_of_startsName h.1⟩
  · exact ⟨'r', by simp, by decide⟩

/-- No keyword starts like the names of wrappers and singletons. -/
theorem isKeyword_of_prefix {name : String} (h : "Preference".toList <+: name.toList) :
    isKeyword name = false := by
  have hkeywords : ∀ word ∈ keywords, "Preference".toList.isPrefixOf word.toList = false := by
    decide
  rw [← Bool.not_eq_true]
  intro hkeyword
  have hname := hkeywords name (by simpa [isKeyword] using hkeyword)
  rw [List.isPrefixOf_iff_prefix.mpr h] at hname
  cases hname

/-- The name of a wrapper is no keyword. -/
theorem isKeyword_of_namesWrapper {name : String} (h : NamesWrapper name) :
    isKeyword name = false := by
  obtain ⟨model, rfl, -⟩ := h
  exact isKeyword_of_prefix ⟨'_' :: model.toList, by simp⟩

/-- The name of a singleton is no keyword. -/
theorem isKeyword_singletonName (name : String) :
    isKeyword ("PreferenceComponent_" ++ name) = false :=
  isKeyword_of_prefix ⟨"Component_".toList ++ name.toList, by simp⟩

/-! ### Components and types -/

/-- The described component can be built when it has wrappers only. -/
theorem exists_componentOf_iff (h : item.DescribesComponent path wrappers) :
    (∃ component, componentOf path wrappers = .ok component) ↔
      ∀ wrapper ∈ wrappers, NamesWrapper wrapper := by
  have hvisible := (isWord_lastName h).isVisible
  simp only [componentOf, ← outcome_declare_eq_ok, exists_declare_iff, ← isWrapperName_iff]
  exact and_iff_right hvisible

variable {component : Component}

/-- The component that is built from the description. -/
theorem wrappers_of_componentOf (h : componentOf path wrappers = .ok component) :
    component.className = path.lastName ∧
      ∀ name, name ∈ component.wrappers ↔ name ∈ wrappers := by
  rw [componentOf, ← outcome_declare_eq_ok] at h
  obtain ⟨-, hname, hwrappers⟩ := declare_eq_ok h
  exact ⟨hname, fun name => by rw [hwrappers, mem_firstSeen]⟩

/-- A field is marked as a field of the class exactly when it has the attribute. -/
theorem toField_marked {field : NamedField} : field.toField.marked = true ↔ field.IsMarked := by
  simp [NamedField.toField, Attribute.isNamed, markerAttribute, NamedField.IsMarked]

/-- A type whose simple name is that of a listed wrapper is a plain path to it. -/
theorem simpleName_eq_wrapper_iff {type : FieldType} (htype : type.ResolvesByLastName)
    {wrapper : String} (hword : IsWord wrapper) (hnamed : NamesWrapper wrapper) :
    simpleName type.declared = wrapper ↔ type.IsPathTo wrapper :=
  htype wrapper hword.isNameLike (isKeyword_of_namesWrapper hnamed)

/-- A type whose simple name is that of the singleton is a plain path to it. -/
theorem simpleName_eq_singleton_iff {type : FieldType} (htype : type.ResolvesByLastName)
    {name : String} (hword : IsWord name) :
    simpleName type.declared = "PreferenceComponent_" ++ name ↔
      type.IsPathTo ("PreferenceComponent_" ++ name) :=
  have hstem : "PreferenceComponent_".toList.all continuesName = true := by decide
  htype _ (hword.isNameLike.append (List.all_eq_true.mp hstem)) (isKeyword_singletonName name)

/-- The component resolves a field exactly when it supplies its type. -/
theorem resolves_toField_iff (hcomponent : componentOf path wrappers = .ok component)
    (hwords : ∀ wrapper ∈ wrappers, IsWord wrapper) (hlast : IsWord path.lastName)
    {field : NamedField} (hfield : field.type.ResolvesByLastName) :
    component.Resolves field.toField ↔ field.type.IsSupplied path wrappers := by
  obtain ⟨hname, hwrappers⟩ := wrappers_of_componentOf hcomponent
  have hwrapper : ∀ wrapper ∈ wrappers,
      (simpleName field.type.declared = wrapper ↔ field.type.IsPathTo wrapper) :=
    fun wrapper hmem => simpleName_eq_wrapper_iff hfield (hwords wrapper hmem)
      (Component.exists_model ((hwrappers wrapper).mpr hmem))
  change simpleName field.type.declared ∈ component.wrappers ∨
    simpleName field.type.declared = "PreferenceComponent_" ++ component.className ↔ _
  rw [hname, simpleName_eq_singleton_iff hfield hlast, hwrappers, FieldType.IsSupplied]
  refine or_congr ⟨fun hmem => ⟨_, hmem, (hwrapper _ hmem).mp rfl⟩, ?_⟩ Iff.rfl
  rintro ⟨wrapper, hmem, hpath⟩
  rwa [(hwrapper wrapper hmem).mpr hpath]

/-- A definition describes one component at most. -/
theorem Item.DescribesComponent.unique {other : Path} {others : List String}
    (h : item.DescribesComponent path wrappers) (hother : item.DescribesComponent other others) :
    other = path ∧ others = wrappers := by
  have hsame := (argumentsOf_eq_ok.mpr hother).symm.trans (argumentsOf_eq_ok.mpr h)
  simpa using hsame

/-! ### Expansions -/

/-- The structure that a supplied definition is, with its component. -/
def Item.IsSupplied.structure (h : item.IsSupplied fields path wrappers) : Described :=
  ⟨item, fields, path, wrappers, h.shape, argumentsOf_eq_ok.mpr h.described⟩

/-- The described component can be built, and resolves the marked fields, exactly when it supplies
them. -/
theorem Described.isSupplied_iff (described : Described) (hitem : described.item.IsLexed) :
    (∃ component, componentOf described.path described.wrappers = .ok component ∧
      ∀ field ∈ described.consumer.fields, field.marked = true → component.Resolves field) ↔
    described.item.IsSupplied described.fields described.path described.wrappers := by
  have hdescribed := argumentsOf_eq_ok.mp described.arguments
  have hresolves {component : Component}
      (hcomponent : componentOf described.path described.wrappers = .ok component) :
      (∀ field ∈ described.consumer.fields, field.marked = true → component.Resolves field) ↔
        ∀ field ∈ described.fields, field.IsMarked →
          field.type.IsSupplied described.path described.wrappers := by
    change (∀ field ∈ described.fields.map NamedField.toField, _) ↔ _
    rw [List.forall_mem_map]
    refine forall₂_congr fun field hfield => ?_
    rw [toField_marked, resolves_toField_iff hcomponent (hitem.isWord_wrapper hdescribed)
      (isWord_lastName hdescribed) (hitem.shape _ described.shape field hfield)]
  constructor
  · rintro ⟨component, hcomponent, hfields⟩
    exact ⟨described.shape, hdescribed, (exists_componentOf_iff hdescribed).mp ⟨_, hcomponent⟩,
      (hresolves hcomponent).mp hfields⟩
  · intro h
    obtain ⟨component, hcomponent⟩ := (exists_componentOf_iff hdescribed).mpr h.named
    exact ⟨component, hcomponent, (hresolves hcomponent).mpr h.supplied⟩

/-- A model is used by a class with a component exactly when it is used by the definition. -/
theorem Described.uses_iff (described : Described) (hitem : described.item.IsLexed)
    {component : Component}
    (hcomponent : componentOf described.path described.wrappers = .ok component) {model : String} :
    described.Uses model ↔ described.item.Uses model := by
  have hdescribed := argumentsOf_eq_ok.mp described.arguments
  have hwrapper {field : NamedField} (hfield : field ∈ described.fields)
      (hlisted : "Preference_" ++ model ∈ described.wrappers)
      (hnamed : NamesWrapper ("Preference_" ++ model)) :=
    simpleName_eq_wrapper_iff (hitem.shape _ described.shape field hfield)
      (hitem.isWord_wrapper hdescribed _ hlisted) hnamed
  constructor
  · rintro ⟨hlisted, consumed, hconsumed, htype⟩
    obtain ⟨hmem, hmarked⟩ := List.mem_filter.mp hconsumed
    obtain ⟨field, hfield, rfl⟩ := List.mem_map.mp hmem
    have hnamed := (exists_componentOf_iff hdescribed).mp ⟨_, hcomponent⟩ _ hlisted
    exact ⟨_, _, _, described.shape, hdescribed, hnamed, hlisted, field, hfield,
      toField_marked.mp hmarked, (hwrapper hfield hlisted hnamed).mp htype⟩
  · rintro ⟨fields, path, wrappers, hshape, hother, hnamed, hlisted, field, hfield, hmarked, htype⟩
    obtain ⟨rfl, rfl⟩ := hdescribed.unique hother
    cases described.shape.symm.trans hshape
    exact ⟨hlisted, field.toField,
      List.mem_filter.mpr ⟨List.mem_map_of_mem hfield, toField_marked.mpr hmarked⟩,
      (hwrapper hfield hlisted hnamed).mpr htype⟩

/-- The described component writes identifiers only, exactly when its singleton and the models
that are used give identifiers. -/
theorem Described.namesAreWritable_iff (described : Described) (hitem : described.item.IsLexed)
    (h : described.item.IsSupplied described.fields described.path described.wrappers)
    {component : Component}
    (hcomponent : componentOf described.path described.wrappers = .ok component) :
    NamesAreWritable component described.consumer ↔ described.item.NamesAreIdentifiers := by
  obtain ⟨hname, hwrappers⟩ := wrappers_of_componentOf hcomponent
  have hsingleton : component.singletonName = "PreferenceComponent_" ++ described.path.lastName :=
    congrArg ("PreferenceComponent_" ++ ·) hname
  constructor
  · intro hwritable
    refine ⟨fun path wrappers hdescribed => ?_, fun model huses => ?_⟩
    · obtain ⟨rfl, -⟩ := h.described.unique hdescribed
      exact hsingleton ▸ hwritable.singleton
    · obtain ⟨-, field, hfield, htype⟩ := (described.uses_iff hitem hcomponent).mpr huses
      obtain ⟨hmem, hmarked⟩ := List.mem_filter.mp hfield
      exact hwritable.accessors field hmem hmarked model htype
  · intro hnames
    refine ⟨hsingleton ▸ hnames.singleton _ _ h.described, ?_⟩
    intro field hfield hmarked model hmodel
    obtain ⟨other, hother, hresolves⟩ := (described.isSupplied_iff hitem).mpr h
    obtain rfl : component = other := Except.ok.inj (hcomponent.symm.trans hother)
    -- The component resolves the field, and not as its singleton.
    rcases hresolves field hfield hmarked with howned | hsingle
    · rw [hmodel, hwrappers] at howned
      exact hnames.accessors model ((described.uses_iff hitem hcomponent).mp
        ⟨howned, field, List.mem_filter.mpr ⟨hfield, hmarked⟩, hmodel⟩)
    · exact (singletonName_ne_wrapper _ _ (hsingle.symm.trans hmodel)).elim

/-- An injector is derived exactly for what is supplied, if the names are identifiers. -/
theorem Item.IsLexed.exists_expand_iff (hitem : item.IsLexed) (hnames : item.NamesAreIdentifiers) :
    (∃ expansion, expand item = .ok expansion) ↔
      ∃ fields path wrappers, item.IsSupplied fields path wrappers := by
  constructor
  · rintro ⟨expansion, hexpansion⟩
    obtain ⟨described, rfl⟩ := exists_described hexpansion
    obtain ⟨component, hcomponent, hresolves, -⟩ := exists_expand.mp ⟨expansion, hexpansion⟩
    exact ⟨_, _, _, (described.isSupplied_iff hitem).mp ⟨component, hcomponent, hresolves⟩⟩
  · rintro ⟨fields, path, wrappers, h⟩
    obtain ⟨component, hcomponent, hresolves⟩ := (h.structure.isSupplied_iff hitem).mpr h
    exact exists_expand.mpr ⟨component, hcomponent, hresolves,
      (h.structure.namesAreWritable_iff hitem h hcomponent).mpr hnames⟩

/-! ### Assignments -/

/-- The last segment is renamed after itself. -/
theorem renamed_lastName (path : Path) (change : String → String) :
    (path.renamed fun _ => change path.lastName) = path.renamed change := by
  rw [Path.renamed, Path.renamed, Path.lastName, Path.names, List.getLast?_map]
  cases path.segments.getLast? <;> rfl

/-- A statement that writes the assignment of a field assigns it. -/
theorem assigns_of_writes (hitem : item.IsLexed) (h : item.IsSupplied fields path wrappers)
    {component : Component} (hcomponent : componentOf path wrappers = .ok component)
    {field : NamedField} (hfield : field ∈ fields) {assignment : Assignment} {statement : Statement}
    (hfills : component.Fills field.toField assignment) (hwrites : statement.Writes assignment) :
    Assigns path wrappers field
      (statement.tokens (path.renamed ("PreferenceComponent_" ++ ·))) := by
  obtain ⟨hname, hwrappers⟩ := wrappers_of_componentOf hcomponent
  have htype := hitem.shape _ h.shape field hfield
  have hassigned : statement.field = field.name := hwrites.field.trans hfills.name
  have haccessor := hfills.accessor
  have hcalled := hwrites.accessor
  cases hcase : assignment.source.accessor with
  | some model =>
    rw [hcase] at haccessor hcalled
    obtain ⟨howned, hmodel⟩ := haccessor
    rw [hwrappers, hmodel] at howned
    have hpath := (simpleName_eq_wrapper_iff htype (hitem.isWord_wrapper h.described _ howned)
      (h.named _ howned)).mp hmodel
    have hassigns : Assigns path wrappers field _ := .wrapper howned hpath
    simpa [Statement.tokens, hassigned, hcalled, assigned, fetched, operator, marksOf, call]
      using hassigns
  | none =>
    rw [hcase] at haccessor hcalled
    rw [hname] at haccessor
    have hpath := (simpleName_eq_singleton_iff htype (isWord_lastName h.described)).mp haccessor
    have hassigns : Assigns path wrappers field _ := .singleton hpath
    simpa [Statement.tokens, hassigned, hcalled, assigned, fetched, operator, marksOf, call]
      using hassigns

/-- The body of the constructor stands at the end of what is derived. -/
theorem Expansion.exists_tokens_eq (self : Expansion) :
    ∃ front signature, self.tokens = front ++ [.group .curly (signature ++ [.group .curly
      ((self.statements.map (·.tokens self.singleton)).flatten ++ [.name "Self"])])] := by
  obtain ⟨signature, hconstructor⟩ : ∃ signature, self.constructor = signature ++ [.group .curly
      ((self.statements.map (·.tokens self.singleton)).flatten ++ [.name "Self"])] := ⟨_, rfl⟩
  refine ⟨allowing "non_camel_case_types" ++ self.visibility ++ [.name "struct", .name self.name] ++
    operator ";" ++ [.name "impl", .name self.name], signature, ?_⟩
  rw [Expansion.tokens, hconstructor, List.append_assoc _ _ [Token.group _ _]]
  rfl

/-- The marked fields of the class are the fields with the attribute. -/
theorem markedFields_structure (h : item.IsSupplied fields path wrappers) :
    h.structure.consumer.markedFields = (fields.filter (·.IsMarked)).map (·.toField) := by
  change (fields.map (·.toField)).filter (·.marked) = _
  rw [List.filter_map]
  refine congrArg _ (List.filter_congr fun field _ => ?_)
  rw [Function.comp_apply, Bool.eq_iff_iff, toField_marked, decide_eq_true_iff]

/-- The constructor that is derived assigns the marked fields. -/
theorem Item.IsLexed.fillsMarked (hitem : item.IsLexed) {expansion : Expansion}
    (hexpansion : expand item = .ok expansion) (h : item.IsSupplied fields path wrappers) :
    expansion.FillsMarked fields path wrappers := by
  change expand h.structure.item = .ok expansion at hexpansion
  obtain ⟨component, injector, statements, hcomponent, hwires, -, hstatements, rfl⟩ :=
    expand_eq_ok.mp hexpansion
  have hname : component.singletonName = "PreferenceComponent_" ++ path.lastName :=
    congrArg ("PreferenceComponent_" ++ ·) (wrappers_of_componentOf hcomponent).1
  have hsingleton : (h.structure.path.renamed fun _ => component.singletonName) =
      path.renamed ("PreferenceComponent_" ++ ·) := by
    rw [hname]
    exact renamed_lastName path ("PreferenceComponent_" ++ ·)
  have hassigns : List.Forall₂ (Assigns path wrappers) (fields.filter (·.IsMarked))
      (statements.map (·.tokens (h.structure.path.renamed fun _ => component.singletonName))) := by
    rw [hsingleton, List.forall₂_map_right_iff]
    have hfilled := forall₂_comp.mpr ⟨_, hwires.assignments, hstatements⟩
    change List.Forall₂ _ h.structure.consumer.markedFields _ at hfilled
    rw [markedFields_structure, List.forall₂_map_left_iff] at hfilled
    refine forall₂_imp_of_mem hfilled fun field hfield statement _ hwritten => ?_
    obtain ⟨assignment, hfills, hwrites⟩ := hwritten
    exact assigns_of_writes hitem h hcomponent (List.mem_of_mem_filter hfield) hfills hwrites
  obtain ⟨front, signature, htokens⟩ := Expansion.exists_tokens_eq _
  refine ⟨⟨front, signature, _, htokens, hassigns⟩, ?_⟩
  rw [fields_eq_of_writes hwires hstatements, markedFields_structure, List.map_map]
  rfl

/-- Where an injector is derived, the generated names are identifiers. -/
theorem Item.IsLexed.namesAreIdentifiers (hitem : item.IsLexed) {expansion : Expansion}
    (h : expand item = .ok expansion) : item.NamesAreIdentifiers := by
  obtain ⟨described, rfl⟩ := exists_described h
  obtain ⟨component, hcomponent, hresolves, hwritable⟩ := exists_expand.mp ⟨expansion, h⟩
  have hsupplied := (described.isSupplied_iff hitem).mp ⟨component, hcomponent, hresolves⟩
  exact (described.namesAreWritable_iff hitem hsupplied hcomponent).mp hwritable

/-- For a text whose generated names are identifiers, an injector is derived exactly when the text
is a structure whose attribute describes a component that supplies the marked fields. The
constructor then assigns these fields in order, and no others. A marked field whose type is no plain
path is never supplied. -/
theorem derives_exactly {text : String} (h : Item.ofText? text = some item)
    (hnames : item.NamesAreIdentifiers) :
    ((∃ expansion, expand item = .ok expansion) ↔
      ∃ fields path wrappers, item.IsSupplied fields path wrappers) ∧
    (∀ expansion fields path wrappers, expand item = .ok expansion →
      item.IsSupplied fields path wrappers → expansion.FillsMarked fields path wrappers) ∧
    ∀ fields, item.shape = .named fields → ∀ field ∈ fields, field.IsMarked →
      (∀ path, field.type ≠ .path path) → ¬ ∃ expansion, expand item = .ok expansion := by
  have hitem := isLexed_of_ofText? h
  refine ⟨hitem.exists_expand_iff hnames, ?_, ?_⟩
  · exact fun expansion fields path wrappers hexpansion hsupplied =>
      hitem.fillsMarked hexpansion hsupplied
  · intro fields hshape field hfield hmarked hother hexpansion
    obtain ⟨others, path, wrappers, hsupplied⟩ := (hitem.exists_expand_iff hnames).mp hexpansion
    cases hshape.symm.trans hsupplied.shape
    rcases hsupplied.supplied field hfield hmarked with ⟨_, -, found, htype, -⟩ | ⟨found, htype, -⟩
    · exact hother found htype
    · exact hother found htype

/-- A structure with a field of each kind: a wrapper, one that is not marked, and the singleton. -/
def screenSource : String :=
  "#[injector(component = \"app::Settings\", wrappers(Preference_UserProfile))] struct Screen " ++
    "\x7b #[inject_preference] user: model::Preference_UserProfile, count: u32, " ++
    "#[inject_preference] all: PreferenceComponent_Settings \x7d"

/-- The definition that is read from the source. -/
def screenItem : Item where
  attributes := [⟨.ofNames false ["injector"], .list
    [.name "component", .mark '=' false, .literal "\"app::Settings\"", .mark ',' false,
      .name "wrappers", .group .round [.name "Preference_UserProfile"]]⟩]
  visibility := []
  name := "Screen"
  parameters := []
  conditions := []
  shape := .named [
    ⟨[⟨.ofNames false ["inject_preference"], .bare⟩], "user",
      .path (.ofNames false ["model", "Preference_UserProfile"])⟩,
    ⟨[], "count", .path (.ofNames false ["u32"])⟩,
    ⟨[⟨.ofNames false ["inject_preference"], .bare⟩], "all",
      .path (.ofNames false ["PreferenceComponent_Settings"])⟩]

/-- The injector that is derived. -/
def screenExpansion : Expansion where
  visibility := []
  name := "Screen_Injector"
  target := "Screen"
  parameters := []
  conditions := []
  singleton := .ofNames false ["app", "PreferenceComponent_Settings"]
  statements := [⟨"user", some "user_profile"⟩, ⟨"all", none⟩]

/-- An injector is derived for the structure, as the theorem has it. -/
theorem derives_exactly_screen :
    Item.ofText? screenSource = some screenItem ∧ screenItem.NamesAreIdentifiers ∧
    expand screenItem = .ok screenExpansion ∧
    ((∃ expansion, expand screenItem = .ok expansion) ↔
      ∃ fields path wrappers, screenItem.IsSupplied fields path wrappers) ∧
    (∀ expansion fields path wrappers, expand screenItem = .ok expansion →
      screenItem.IsSupplied fields path wrappers → expansion.FillsMarked fields path wrappers) ∧
    ∀ fields, screenItem.shape = .named fields → ∀ field ∈ fields, field.IsMarked →
      (∀ path, field.type ≠ .path path) → ¬ ∃ expansion, expand screenItem = .ok expansion :=
  have hread : Item.ofText? screenSource = some screenItem := by decide +kernel
  have hexpand : expand screenItem = .ok screenExpansion := by decide +kernel
  have hnames := (isLexed_of_ofText? hread).namesAreIdentifiers hexpand
  ⟨hread, hnames, hexpand, derives_exactly hread hnames⟩

end PreferenceInjector.Derive
