import PreferenceInjector.Proofs.Declaration.Denotation
import PreferenceInjector.Proofs.Reported

/-!
# From documents to declaration files

What is built from a legal document is what the document declares, and building fails only for a
component that lists another name than a wrapper's. All names of a legal document are legal, which
is what ties the textual cut at the last dot to the last identifier of a name.
-/

namespace PreferenceInjector.Declaration

variable {rest : List Char}

/-! ### Names of legal trees -/

/-- Every piece is legal in front of what follows it. -/
theorem Legal.exists_isLegal {pieces : List Piece} (h : Legal pieces rest) {piece : Piece}
    (hmem : piece ∈ pieces) : ∃ r, piece.IsLegal r := by
  induction pieces with
  | nil => cases hmem
  | cons first pieces ih =>
    rcases List.mem_cons.mp hmem with rfl | hmem
    · exact ⟨_, h.1⟩
    · exact ih h.2 hmem

/-- Pieces in the middle of legal ones are legal. -/
theorem Legal.of_infix {pieces middle : List Piece} (h : Legal pieces rest)
    (left right : List Piece) (heq : pieces = left ++ (middle ++ right)) :
    ∃ r, Legal middle r := by
  rw [heq, legal_append, legal_append] at h
  exact ⟨_, h.2.1⟩

/-- A dotted name among legal pieces is legal. -/
theorem Legal.dotted {pieces : List Piece} (h : Legal pieces rest) {name : Dotted}
    (hmem : .dotted name ∈ pieces) : name.IsLegal := by
  obtain ⟨r, hname, -⟩ := h.exists_isLegal hmem
  exact hname

/-- An identifier among legal pieces is one. -/
theorem Legal.identifier {pieces : List Piece} (h : Legal pieces rest) {name : List Char}
    (hmem : .identifier name ∈ pieces) : IsIdentifier name := by
  obtain ⟨r, hname, -⟩ := h.exists_isLegal hmem
  exact hname

/-- The pieces of an item are among those of all items. -/
theorem mem_spread {α : Type} {pieces : α → List Piece} {items : List (Gap × α)} {piece : Piece}
    {item : Gap × α} (hitem : item ∈ items) (h : piece ∈ pieces item.2) :
    piece ∈ spread pieces items :=
  List.mem_flatMap.mpr ⟨item, hitem, List.mem_append_right _ h⟩

/-- Every name of a list is one of its pieces. -/
theorem NamesTree.dotted_mem_pieces {names : NamesTree} {name : Dotted}
    (h : name ∈ names.first :: names.more.map (·.2.2)) : .dotted name ∈ names.pieces := by
  rcases List.mem_cons.mp h with rfl | h
  · simp [NamesTree.pieces]
  · obtain ⟨next, hnext, rfl⟩ := List.mem_map.mp h
    have hmem : .dotted next.2.2 ∈ spread nextNamePieces names.more :=
      mem_spread hnext (by simp [nextNamePieces])
    simp [NamesTree.pieces, hmem]

/-- Every name that an entry lists or injects is one of its pieces. -/
theorem EntryTree.dotted_mem_pieces {entry : EntryTree} {name : Dotted}
    (h : name ∈ entry.entityNames ∨ name ∈ entry.injectNames) : .dotted name ∈ entry.pieces := by
  cases entry with
  | entities names beforeEnd =>
    have hmem : .dotted name ∈ names.pieces :=
      NamesTree.dotted_mem_pieces (h.resolve_right List.not_mem_nil)
    simp [EntryTree.pieces, hmem]
  | inject names beforeEnd =>
    have hmem : .dotted name ∈ names.pieces :=
      NamesTree.dotted_mem_pieces (h.resolve_left List.not_mem_nil)
    simp [EntryTree.pieces, hmem]

/-- Every name that a component lists or injects is one of its pieces. -/
theorem ComponentTree.dotted_mem_pieces {tree : ComponentTree} {name : Dotted}
    (h : name ∈ tree.entityNames ∨ name ∈ tree.injectNames) : .dotted name ∈ tree.pieces := by
  have hentry : ∃ entry ∈ tree.entries,
      name ∈ entry.2.entityNames ∨ name ∈ entry.2.injectNames := by
    rcases h with h | h
    · obtain ⟨entry, hentry, hname⟩ := List.mem_flatMap.mp h
      exact ⟨entry, hentry, Or.inl hname⟩
    · obtain ⟨entry, hentry, hname⟩ := List.mem_flatMap.mp h
      exact ⟨entry, hentry, Or.inr hname⟩
  obtain ⟨entry, hentry, hname⟩ := hentry
  have hmem : .dotted name ∈ spread EntryTree.pieces tree.entries :=
    mem_spread hentry (EntryTree.dotted_mem_pieces hname)
  simp [ComponentTree.pieces, hmem]

/-- Every block of a legal document is legal. -/
theorem Document.WellFormed.item {document : Document} (h : document.WellFormed) :
    ∀ item ∈ document.items, ∃ r, Legal item.2.pieces r := by
  have hlegal := h.legal
  rw [Document.pieces, legal_append, legal_append] at hlegal
  exact hlegal.1.2.exists_of_mem

/-! ### Fields and classes -/

/-- An annotation is the marker when its last identifier says so. -/
theorem Decoration.isMarker_iff {decoration : Decoration} (h : Legal decoration.pieces rest) :
    decoration.isMarker = true ↔ decoration.Marks := by
  cases decoration with
  | annotated gap name after arguments =>
    have hname : name.IsLegal := h.dotted (by simp [Decoration.pieces])
    rw [Decoration.isMarker, hname.simpleName, beq_iff_eq]
    rfl
  | modifier word => simp [Decoration.isMarker, Decoration.Marks]

/-- The field that is built from a legal field declaration is what it declares. -/
theorem FieldTree.declares_field {tree : FieldTree} (h : Legal tree.pieces rest) :
    tree.Declares tree.field := by
  obtain ⟨r, hdecorations⟩ : ∃ r, Legal (spread Decoration.pieces tree.decorations) r :=
    h.of_infix [] (Gap.pieces tree.beforeType ++ tree.type.pieces ++
      Gap.pieces tree.beforeName ++ .identifier tree.name :: Gap.pieces tree.beforeEnd ++
        [.fixed [';']]) (by simp [FieldTree.pieces])
  refine ⟨rfl, rfl, ?_⟩
  have hmarker : ∀ decoration ∈ tree.decorations,
      (decoration.2.isMarker = true ↔ decoration.2.Marks) := by
    intro decoration hmem
    obtain ⟨r, hlegal⟩ := hdecorations.exists_of_mem decoration hmem
    exact decoration.2.isMarker_iff hlegal
  rw [FieldTree.field, List.any_eq_true]
  constructor
  · intro hdecorations
    obtain ⟨decoration, hmem, hmarked⟩ := hdecorations
    exact ⟨decoration, hmem, (hmarker decoration hmem).mp hmarked⟩
  · intro hdecorations
    obtain ⟨decoration, hmem, hmarks⟩ := hdecorations
    exact ⟨decoration, hmem, (hmarker decoration hmem).mpr hmarks⟩

/-- Every field of a legal class is legal. -/
theorem ClassTree.legal_field {tree : ClassTree} (h : Legal tree.pieces rest) :
    ∀ field ∈ tree.fields, ∃ r, Legal field.2.pieces r := by
  obtain ⟨r, hfields⟩ : ∃ r, Legal (spread FieldTree.pieces tree.fields) r :=
    h.of_infix (.fixed "class".toList :: Gap.pieces tree.beforeName ++ .identifier tree.name ::
      Gap.pieces tree.beforeBody ++ [.fixed ['\x7b']])
      (Gap.pieces tree.beforeEnd ++ [.fixed ['\x7d']]) (by simp [ClassTree.pieces])
  exact hfields.exists_of_mem

/-- The class that is built from a legal class declaration is what it declares. -/
theorem ClassTree.declares_consumer {tree : ClassTree} (h : Legal tree.pieces rest)
    (package : String) : tree.Declares package (tree.consumer package) := by
  refine ⟨rfl, rfl, ?_⟩
  rw [ClassTree.consumer, List.forall₂_map_right_iff, List.forall₂_same]
  intro item hmem
  obtain ⟨r, hlegal⟩ := ClassTree.legal_field h item hmem
  exact FieldTree.declares_field hlegal

/-! ### Components -/

/-- A filtered list has the first occurrences that the filter keeps. -/
theorem firstSeen_filter (p : String → Bool) (names : List String) :
    firstSeen (names.filter p) = (firstSeen names).filter p := by
  induction names with
  | nil => rfl
  | cons name names ih =>
    by_cases hname : p name = true
    · rw [List.filter_cons_of_pos hname, firstSeen, ih, firstSeen, List.filter_cons_of_pos hname,
        List.filter_filter, List.filter_filter]
      simp only [Bool.and_comm]
    · rw [List.filter_cons_of_neg hname, ih, firstSeen, List.filter_cons_of_neg hname,
        List.filter_filter]
      apply List.filter_congr
      intro other _
      cases hother : p other with
      | false => rfl
      | true =>
        have hne : other ≠ name := by
          intro heq
          subst heq
          exact hname hother
        simp [hne]

/-- Each element is kept at the place of its first occurrence. -/
theorem firstSeen_eq_eraseDups (names : List String) : firstSeen names = names.eraseDups := by
  match names with
  | [] => rfl
  | name :: names =>
    rw [firstSeen, ← firstSeen_filter, firstSeen_eq_eraseDups, List.eraseDups_cons]
    rfl
termination_by names.length
decreasing_by exact Nat.lt_succ_of_le (List.length_filter_le _ _)

/-- A component is declared when it can be built. -/
theorem outcome_declare_eq_ok {package className : String} {names : List String}
    {component : Component} :
    (Component.declare package className names).outcome = .ok component ↔
      Component.build package className names = .ok component := by
  rw [Component.declare]
  cases Component.build package className names with
  | ok found => simp
  | error flaw => simp [Reported.malformed]

/-- A component is declared with the given names. -/
theorem declare_eq_ok {package className : String} {names : List String} {component : Component}
    (h : (Component.declare package className names).outcome = .ok component) :
    component.package = package ∧ component.className = className ∧
      component.wrappers = firstSeen names := by
  rw [outcome_declare_eq_ok, Component.build] at h
  split at h
  · split at h
    · cases h
    · cases h
      exact ⟨rfl, rfl, rfl⟩
  · cases h

/-- A component with a visible name and wrappers only can be declared. -/
theorem exists_declare (package : String) {className : String} {names : List String}
    (hvisible : isVisible className = true) (hnames : ∀ name ∈ names, isWrapperName name = true) :
    ∃ component, (Component.declare package className names).outcome = .ok component := by
  have hnone : (firstSeen names).find? (! isWrapperName ·) = none := by
    rw [List.find?_eq_none]
    intro name hname
    simp [hnames name (mem_firstSeen.mp hname)]
  simp only [outcome_declare_eq_ok]
  rw [Component.build, dif_pos hvisible]
  split
  · next name hwrong => cases hnone.symm.trans hwrong
  · exact ⟨_, rfl⟩

/-- A letter lies between the capital A and the small z. -/
theorem range_of_isAlpha {c : Char} (h : c.isAlpha = true) : 65 ≤ c.toNat ∧ c.toNat ≤ 122 := by
  have hletter : (decide ('A'.val ≤ c.val ∧ c.val ≤ 'Z'.val) ||
      (decide ('a'.val ≤ c.val) && decide (c.val ≤ 'z'.val))) = true := h
  rw [Bool.or_eq_true, Bool.and_eq_true, decide_eq_true_eq, decide_eq_true_eq,
    decide_eq_true_eq] at hletter
  rcases hletter with ⟨hlow, hhigh⟩ | ⟨hlow, hhigh⟩
  · exact ⟨hlow, Nat.le_trans hhigh (by decide)⟩
  · exact ⟨Nat.le_trans (by decide) hlow, hhigh⟩

/-- No identifier holds white space. -/
theorem not_isWhiteSpace_of_isIdentifierPart {c : Char} (h : isIdentifierPart c = true) :
    isWhiteSpace c = false := by
  have hrange : 36 ≤ c.toNat ∧ c.toNat ≤ 122 := by
    simp only [isIdentifierPart, Char.isAlphanum, Bool.or_eq_true, beq_iff_eq] at h
    rcases h with ((h | h) | rfl) | rfl
    · obtain ⟨hlow, hhigh⟩ := range_of_isAlpha h
      exact ⟨by omega, hhigh⟩
    · have hdigit : (decide ('0'.val ≤ c.val) && decide (c.val ≤ '9'.val)) = true := h
      rw [Bool.and_eq_true, decide_eq_true_eq, decide_eq_true_eq] at hdigit
      exact ⟨Nat.le_trans (by decide) hdigit.1, Nat.le_trans hdigit.2 (by decide)⟩
    · decide
    · decide
  simp only [isWhiteSpace, Bool.or_eq_false_iff, Bool.and_eq_false_iff, decide_eq_false_iff_not,
    beq_eq_false_iff_ne]
  omega

/-- An identifier can be seen. -/
theorem IsIdentifier.isVisible {name : List Char} (h : IsIdentifier name) :
    isVisible (String.ofList name) = true := by
  obtain ⟨c, more, rfl, hc⟩ := h.exists_cons
  have hblank := not_isWhiteSpace_of_isIdentifierPart (isIdentifierPart_of_isIdentifierStart hc)
  simp [PreferenceInjector.isVisible, hblank]

/-- A name whose last identifier is `Preference_` and at least one character more. -/
def Dotted.IsWrapper (name : Dotted) : Prop :=
  ∃ model, model ≠ [] ∧ name.last = "Preference_".toList ++ model

/-- Every name in a list of wrappers is one of a wrapper. -/
def Document.ListsWrappers (document : Document) : Prop :=
  ∀ gap tree, (gap, .component tree) ∈ document.items → ∀ name ∈ tree.entityNames, name.IsWrapper

/-- The last identifier of a wrapper's name has the form of a wrapper name. -/
theorem Dotted.IsWrapper.isWrapperName {name : Dotted} (h : name.IsWrapper) :
    isWrapperName (String.ofList name.last) = true := by
  obtain ⟨model, hmodel, hlast⟩ := h
  have hdrop : dropStem? wrapperStem (String.ofList name.last) = some (String.ofList model) := by
    have hstem : name.last = wrapperStem.toList ++ model := hlast
    have hprefix : wrapperStem.toList.isPrefixOf (wrapperStem.toList ++ model) = true :=
      List.isPrefixOf_iff_prefix.mpr (List.prefix_append _ _)
    rw [dropStem?, String.toList_ofList, hstem, if_pos hprefix, List.drop_left]
  rw [PreferenceInjector.isWrapperName, wrapperAccessor, hdrop]
  simp [hmodel]

/-- The wrappers of a legal component are the last identifiers of the names that it lists. -/
theorem ComponentTree.wrappers_eq {tree : ComponentTree} (h : Legal tree.pieces rest) :
    tree.entries.flatMap (·.2.wrappers) =
      tree.entityNames.map fun name => String.ofList name.last := by
  have hentry : ∀ entry : EntryTree,
      entry.wrappers = entry.entityNames.map (simpleName ·.string) := by
    intro entry
    cases entry with
    | entities names beforeEnd => rfl
    | inject names beforeEnd => rfl
  have hnames : tree.entries.flatMap (·.2.wrappers) =
      tree.entityNames.map (simpleName ·.string) := by
    simp only [hentry, ComponentTree.entityNames, List.map_flatMap]
  rw [hnames]
  apply List.map_congr_left
  intro name hmem
  exact (h.dotted (ComponentTree.dotted_mem_pieces (Or.inl hmem))).simpleName

/-- The injected classes of a legal component are the targets of the names that it injects. -/
theorem ComponentTree.targets_eq {tree : ComponentTree} (h : Legal tree.pieces rest)
    (package : String) :
    tree.entries.flatMap (·.2.targets package) = tree.injectNames.map (Dotted.target package) := by
  have hentry : ∀ entry : EntryTree,
      entry.targets package = entry.injectNames.map (targetIn package ·.string) := by
    intro entry
    cases entry with
    | entities names beforeEnd => rfl
    | inject names beforeEnd => rfl
  have hnames : tree.entries.flatMap (·.2.targets package) =
      tree.injectNames.map (targetIn package ·.string) := by
    simp only [hentry, ComponentTree.injectNames, List.map_flatMap]
  rw [hnames]
  apply List.map_congr_left
  intro name hmem
  exact (h.dotted (ComponentTree.dotted_mem_pieces (Or.inr hmem))).targetIn package

/-- The entry that is built from a legal component declaration is what it declares. -/
theorem ComponentTree.declares_entry {tree : ComponentTree} (h : Legal tree.pieces rest)
    {package : String} {entry : Entry} (hentry : (tree.entry package).outcome = .ok entry) :
    tree.Declares package entry := by
  rw [ComponentTree.entry, Reported.outcome_bind_eq_ok] at hentry
  obtain ⟨component, hcomponent, hentry⟩ := hentry
  cases hentry
  obtain ⟨hpackage, hname, hwrappers⟩ := declare_eq_ok hcomponent
  refine ⟨hpackage, hname, ?_, ComponentTree.targets_eq h package⟩
  rw [hwrappers, firstSeen_eq_eraseDups, ComponentTree.wrappers_eq h]

/-- A legal component that lists wrappers only can be built. -/
theorem ComponentTree.exists_entry {tree : ComponentTree} (h : Legal tree.pieces rest)
    (hwrappers : ∀ name ∈ tree.entityNames, name.IsWrapper) (package : String) :
    ∃ entry, (tree.entry package).outcome = .ok entry := by
  have hname : IsIdentifier tree.name := h.identifier (by simp [ComponentTree.pieces])
  have hnames : ∀ name ∈ tree.entries.flatMap (·.2.wrappers), isWrapperName name = true := by
    rw [ComponentTree.wrappers_eq h, List.forall_mem_map]
    exact fun name hmem => (hwrappers name hmem).isWrapperName
  obtain ⟨component, hcomponent⟩ := exists_declare package hname.isVisible hnames
  refine ⟨⟨component, tree.entries.flatMap (·.2.targets package)⟩, ?_⟩
  rw [ComponentTree.entry, Reported.outcome_bind_eq_ok]
  exact ⟨component, hcomponent, rfl⟩

/-! ### Documents -/

/-- The components among blocks. -/
theorem mem_componentTrees {items : List (Gap × ItemTree)} {tree : ComponentTree} :
    tree ∈ componentTrees items ↔ ∃ gap, (gap, .component tree) ∈ items := by
  rw [componentTrees, List.mem_filterMap]
  constructor
  · intro h
    obtain ⟨⟨gap, item⟩, hitem, htree⟩ := h
    cases item with
    | component other =>
      cases htree
      exact ⟨gap, hitem⟩
    | consumer other => cases htree
  · intro h
    obtain ⟨gap, hitem⟩ := h
    exact ⟨_, hitem, rfl⟩

/-- The classes among blocks. -/
theorem mem_classTrees {items : List (Gap × ItemTree)} {tree : ClassTree} :
    tree ∈ classTrees items ↔ ∃ gap, (gap, .consumer tree) ∈ items := by
  rw [classTrees, List.mem_filterMap]
  constructor
  · intro h
    obtain ⟨⟨gap, item⟩, hitem, htree⟩ := h
    cases item with
    | component other => cases htree
    | consumer other =>
      cases htree
      exact ⟨gap, hitem⟩
  · intro h
    obtain ⟨gap, hitem⟩ := h
    exact ⟨_, hitem, rfl⟩

/-- What is built from legal blocks is what they declare. -/
theorem itemsDeclare {package : String} {items : List (Gap × ItemTree)} {entries : List Entry}
    (hlegal : ∀ item ∈ items, ∃ r, Legal item.2.pieces r)
    (hentries : List.Forall₂ (fun tree entry => (ComponentTree.entry package tree).outcome =
      .ok entry) (componentTrees items) entries) :
    ItemsDeclare package items entries
      ((classTrees items).map (ClassTree.consumer package)) := by
  induction items generalizing entries with
  | nil =>
    cases hentries
    exact .nil
  | cons item items ih =>
    obtain ⟨⟨r, hitem⟩, hitems⟩ := List.forall_mem_cons.mp hlegal
    obtain ⟨gap, item⟩ := item
    cases item with
    | component tree =>
      cases hentries with
      | cons hentry hentries =>
        exact .component (ComponentTree.declares_entry hitem hentry) (ih hitems hentries)
    | consumer tree =>
      exact .consumer (ClassTree.declares_consumer hitem package) (ih hitems hentries)

/-- The package of a document is the text of the name in its package clause. -/
theorem Document.packageName_eq (document : Document) :
    document.packageName = match document.package with
      | some tree => String.ofList tree.name.text
      | none => "" := by
  rw [Document.packageName]
  cases document.package with
  | some tree => rfl
  | none => rfl

/-- The file that is built from a well-formed document is what it declares. -/
theorem Document.WellFormed.declares {document : Document} (h : document.WellFormed)
    {path : String} {file : File} (hfile : (document.file path).outcome = .ok file) :
    document.Declares path file := by
  rw [Document.file, Reported.outcome_bind_eq_ok] at hfile
  obtain ⟨entries, hentries, hfile⟩ := hfile
  cases hfile
  rw [Reported.outcome_forEach_eq_ok] at hentries
  exact ⟨rfl, document.packageName_eq, itemsDeclare h.item hentries⟩

/-- A well-formed document that lists wrappers only can be built. -/
theorem Document.WellFormed.exists_file {document : Document} (h : document.WellFormed)
    (hwrappers : document.ListsWrappers) (path : String) :
    ∃ file, (document.file path).outcome = .ok file := by
  have hentry : ∀ tree ∈ componentTrees document.items,
      ∃ entry, (ComponentTree.entry document.packageName tree).outcome = .ok entry := by
    intro tree hmem
    obtain ⟨gap, hitem⟩ := mem_componentTrees.mp hmem
    obtain ⟨r, hlegal⟩ := h.item _ hitem
    exact ComponentTree.exists_entry hlegal (hwrappers gap tree hitem) _
  obtain ⟨entries, hentries⟩ := Reported.exists_outcome_forEach hentry
  refine ⟨{ path, package := document.packageName, components := entries
            classes := (classTrees document.items).map
              (ClassTree.consumer document.packageName) }, ?_⟩
  rw [Document.file, Reported.outcome_bind_eq_ok]
  exact ⟨entries, hentries, rfl⟩

end PreferenceInjector.Declaration
