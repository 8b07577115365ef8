import PreferenceInjector.Proofs.Declaration.Completeness.Document

/-!
# What documents declare

The denotation of a document as a relation to declaration files, block by block and field by field
in the order of the source. It reads names off the identifiers of a document: the simple name of a
dotted name is its last identifier, and a name is qualified when it has more than one. A document
declares at most one file, and whatever is built from a legal document is what it declares.
-/

namespace PreferenceInjector.Declaration

/-! ### The denotation -/

/-- The identifiers of a dotted name. -/
def Dotted.parts (name : Dotted) : List String := (name.first :: name.more).map String.ofList

/-- The last identifier of a dotted name. -/
def Dotted.last (name : Dotted) : List Char := name.more.getLastD name.first

/-- A name of one identifier, in the package if there is one; any other name as it is. -/
def Dotted.target (package : String) (name : Dotted) : String :=
  if name.more = [] ∧ package ≠ "" then package ++ "." ++ String.ofList name.first
  else String.ofList name.text

/-- An annotation with the simple name of the injection marker. -/
def Decoration.Marks : Decoration → Prop
  | annotated _ name _ _ => String.ofList name.last = "InjectPreference"
  | modifier _ => False

/-- A field declaration declares its name, its type without the white space around it, and whether
one of its annotations is the injection marker. -/
structure FieldTree.Declares (tree : FieldTree) (field : Field) : Prop where
  name : field.name = String.ofList tree.name
  type : field.type = String.ofList (trimmed tree.type.text)
  marked : field.marked = true ↔ ∃ decoration ∈ tree.decorations, decoration.2.Marks

/-- A class declaration declares its fields in order. -/
structure ClassTree.Declares (package : String) (tree : ClassTree) (consumer : Consumer) :
    Prop where
  inPackage : consumer.package = package
  name : consumer.name = String.ofList tree.name
  fields : List.Forall₂ (fun item field => item.2.Declares field) tree.fields consumer.fields

/-- The names of the wrappers that an entry lists. -/
def EntryTree.entityNames : EntryTree → List Dotted
  | entities names _ => names.first :: names.more.map (·.2.2)
  | inject _ _ => []

/-- The names of the classes that an entry injects. -/
def EntryTree.injectNames : EntryTree → List Dotted
  | entities _ _ => []
  | inject names _ => names.first :: names.more.map (·.2.2)

/-- The names of the wrappers that all entries of a component list. -/
def ComponentTree.entityNames (tree : ComponentTree) : List Dotted :=
  tree.entries.flatMap (·.2.entityNames)

/-- The names of the classes that all entries of a component inject. -/
def ComponentTree.injectNames (tree : ComponentTree) : List Dotted :=
  tree.entries.flatMap (·.2.injectNames)

/-- A component declaration declares the simple names of its wrappers, each where it is first
listed, and its injected classes in order. -/
structure ComponentTree.Declares (package : String) (tree : ComponentTree) (entry : Entry) :
    Prop where
  inPackage : entry.component.package = package
  name : entry.component.className = String.ofList tree.name
  wrappers : entry.component.wrappers =
    (tree.entityNames.map fun name => String.ofList name.last).eraseDups
  injects : entry.injects = tree.injectNames.map (Dotted.target package)

/-- Blocks declare components and classes, each in the order of the blocks. -/
inductive ItemsDeclare (package : String) :
    List (Gap × ItemTree) → List Entry → List Consumer → Prop where
  | nil : ItemsDeclare package [] [] []
  | component {gap : Gap} {tree : ComponentTree} {entry : Entry} {items : List (Gap × ItemTree)}
      {entries : List Entry} {consumers : List Consumer} : tree.Declares package entry →
      ItemsDeclare package items entries consumers →
      ItemsDeclare package ((gap, .component tree) :: items) (entry :: entries) consumers
  | consumer {gap : Gap} {tree : ClassTree} {consumer : Consumer} {items : List (Gap × ItemTree)}
      {entries : List Entry} {consumers : List Consumer} : tree.Declares package consumer →
      ItemsDeclare package items entries consumers →
      ItemsDeclare package ((gap, .consumer tree) :: items) entries (consumer :: consumers)

/-- A document declares a file under a path: its package, and its blocks in that package. -/
structure Document.Declares (document : Document) (path : String) (file : File) : Prop where
  path : file.path = path
  package : file.package = match document.package with
    | some tree => String.ofList tree.name.text
    | none => ""
  items : ItemsDeclare file.package document.items file.components file.classes

/-! ### Names -/

/-- No identifier holds a dot. -/
theorem IsIdentifier.dot_notMem {name : List Char} (h : IsIdentifier name) : '.' ∉ name := by
  intro hdot
  exact absurd (h.isIdentifierPart '.' hdot) (by decide)

/-- A text without dots is its own simple name. -/
theorem simpleName_of_dot_notMem {name : List Char} (h : '.' ∉ name) :
    simpleName (String.ofList name) = String.ofList name := by
  have hall : ∀ c ∈ name.reverse, (c != '.') = true := by
    intro c hc
    rw [bne_iff_ne]
    intro heq
    subst heq
    exact h (List.mem_reverse.mp hc)
  rw [simpleName, String.toList_ofList, List.takeWhile_eq_self_iff.mpr hall, List.reverse_reverse]

/-- The simple name is what follows the last dot. -/
theorem simpleName_append_dot (before : List Char) {name : List Char} (h : '.' ∉ name) :
    simpleName (String.ofList (before ++ '.' :: name)) = String.ofList name := by
  have hall : ∀ c ∈ name.reverse, (c != '.') = true := by
    intro c hc
    rw [bne_iff_ne]
    intro heq
    subst heq
    exact h (List.mem_reverse.mp hc)
  have htake : (before ++ '.' :: name).reverse.takeWhile (· != '.') = name.reverse := by
    rw [List.reverse_append, List.reverse_cons, List.append_assoc]
    exact takeWhile_append_stop hall (by simp)
  rw [simpleName, String.toList_ofList, htake, List.reverse_reverse]

/-- A dotted name is made of its identifiers. -/
theorem Dotted.string_eq_intercalate (name : Dotted) :
    name.string = ".".intercalate name.parts := by
  obtain ⟨first, more⟩ := name
  induction more generalizing first with
  | nil => simp [Dotted.string, Dotted.text, Dotted.parts]
  | cons part more ih =>
    have hpart : String.ofList (part ++ more.flatMap ('.' :: ·)) =
        ".".intercalate ((part :: more).map String.ofList) := ih part
    rw [Dotted.string, Dotted.text, Dotted.parts, List.flatMap_cons, List.cons_append,
      List.map_cons, List.map_cons, String.intercalate_cons_cons, ← List.map_cons, ← hpart]
    simp [← String.toList_inj]

/-- A dotted name of several identifiers ends in a dot and the last one. -/
theorem Dotted.exists_text_eq {name : Dotted} (h : name.more ≠ []) :
    ∃ before, name.text = before ++ '.' :: name.last := by
  obtain ⟨first, more⟩ := name
  refine ⟨first ++ more.dropLast.flatMap ('.' :: ·), ?_⟩
  have hmore : more = more.dropLast ++ [more.getLast h] := (List.dropLast_append_getLast h).symm
  have hlast : Dotted.last ⟨first, more⟩ = more.getLast h := by
    simp [Dotted.last, List.getLastD_eq_getLast?, List.getLast?_eq_getLast_of_ne_nil h]
  rw [hlast, Dotted.text]
  conv_lhs => rw [hmore]
  simp

/-- The last identifier of a legal name is one. -/
theorem Dotted.IsLegal.last {name : Dotted} (h : name.IsLegal) : IsIdentifier name.last := by
  obtain ⟨first, more⟩ := name
  cases more with
  | nil => exact h.1
  | cons part more =>
    have hmem : (part :: more).getLastD first ∈ part :: more := by
      rw [List.getLastD_cons]
      exact List.getLastD_mem_cons
    exact h.2 _ hmem

/-- The simple name of a legal name is its last identifier. -/
theorem Dotted.IsLegal.simpleName {name : Dotted} (h : name.IsLegal) :
    simpleName name.string = String.ofList name.last := by
  by_cases hmore : name.more = []
  · have htext : name.text = name.last := by simp [Dotted.text, Dotted.last, hmore]
    rw [Dotted.string, htext]
    exact simpleName_of_dot_notMem h.last.dot_notMem
  · obtain ⟨before, htext⟩ := Dotted.exists_text_eq hmore
    rw [Dotted.string, htext]
    exact simpleName_append_dot before h.last.dot_notMem

/-- A legal name holds a dot when it has more than one identifier. -/
theorem Dotted.IsLegal.contains_dot {name : Dotted} (h : name.IsLegal) :
    name.string.toList.contains '.' = !name.more.isEmpty := by
  obtain ⟨first, more⟩ := name
  rw [Dotted.string, String.toList_ofList, Dotted.text]
  cases more with
  | nil =>
    have hdot : '.' ∉ first := h.1.dot_notMem
    simp [hdot]
  | cons part more => simp

/-- An injected class is looked for under its target name. -/
theorem Dotted.IsLegal.targetIn {name : Dotted} (h : name.IsLegal) (package : String) :
    targetIn package name.string = name.target package := by
  rw [Declaration.targetIn, h.contains_dot, Dotted.target]
  by_cases hmore : name.more = []
  · by_cases hpackage : package = ""
    · simp [hmore, hpackage, qualify, Dotted.string]
    · have hempty : package.isEmpty = false := by simpa using hpackage
      have htext : name.text = name.first := by simp [Dotted.text, hmore]
      simp [hmore, hpackage, qualify, hempty, Dotted.string, htext]
  · simp [hmore, Dotted.string]

/-! ### A document declares one file -/

/-- A field declaration declares one field. -/
theorem FieldTree.Declares.unique {tree : FieldTree} {field other : Field}
    (h : tree.Declares field) (h' : tree.Declares other) : field = other := by
  obtain ⟨name, type, marked⟩ := field
  obtain ⟨name', type', marked'⟩ := other
  have hname : name = name' := h.name.trans h'.name.symm
  have htype : type = type' := h.type.trans h'.type.symm
  have hmarked : marked = marked' := Bool.eq_iff_iff.mpr (h.marked.trans h'.marked.symm)
  rw [hname, htype, hmarked]

/-- Field declarations in order declare one list of fields. -/
theorem fields_unique {items : List (Gap × FieldTree)} {fields others : List Field}
    (h : List.Forall₂ (fun item field => item.2.Declares field) items fields)
    (h' : List.Forall₂ (fun item field => item.2.Declares field) items others) :
    fields = others := by
  induction h generalizing others with
  | nil =>
    cases h'
    rfl
  | cons hfield _ ih =>
    cases h' with
    | cons hother hothers => rw [hfield.unique hother, ih hothers]

/-- A class declaration declares one class. -/
theorem ClassTree.Declares.unique {package : String} {tree : ClassTree} {consumer other : Consumer}
    (h : tree.Declares package consumer) (h' : tree.Declares package other) :
    consumer = other := by
  obtain ⟨inPackage, name, fields⟩ := consumer
  obtain ⟨inPackage', name', fields'⟩ := other
  have hpackage : inPackage = inPackage' := h.inPackage.trans h'.inPackage.symm
  have hname : name = name' := h.name.trans h'.name.symm
  have hfields : fields = fields' := fields_unique h.fields h'.fields
  rw [hpackage, hname, hfields]

/-- A component declaration declares one component with its injected classes. -/
theorem ComponentTree.Declares.unique {package : String} {tree : ComponentTree}
    {entry other : Entry} (h : tree.Declares package entry) (h' : tree.Declares package other) :
    entry = other := by
  obtain ⟨⟨inPackage, name, wrappers, _, _, _⟩, injects⟩ := entry
  obtain ⟨⟨inPackage', name', wrappers', _, _, _⟩, injects'⟩ := other
  obtain rfl : inPackage = inPackage' := h.inPackage.trans h'.inPackage.symm
  obtain rfl : name = name' := h.name.trans h'.name.symm
  obtain rfl : wrappers = wrappers' := h.wrappers.trans h'.wrappers.symm
  obtain rfl : injects = injects' := h.injects.trans h'.injects.symm
  rfl

/-- Blocks declare one list of components and one of classes. -/
theorem ItemsDeclare.unique {package : String} {items : List (Gap × ItemTree)}
    {entries others : List Entry} {consumers others' : List Consumer}
    (h : ItemsDeclare package items entries consumers)
    (h' : ItemsDeclare package items others others') :
    entries = others ∧ consumers = others' := by
  induction h generalizing others others' with
  | nil =>
    cases h'
    exact ⟨rfl, rfl⟩
  | component htree _ ih =>
    cases h' with
    | component hother hothers =>
      obtain ⟨rfl, rfl⟩ := ih hothers
      exact ⟨by rw [htree.unique hother], rfl⟩
  | consumer htree _ ih =>
    cases h' with
    | consumer hother hothers =>
      obtain ⟨rfl, rfl⟩ := ih hothers
      exact ⟨rfl, by rw [htree.unique hother]⟩

/-- A document declares one file under a path. -/
theorem Document.Declares.unique {document : Document} {path : String} {file other : File}
    (h : document.Declares path file) (h' : document.Declares path other) : file = other := by
  obtain ⟨filePath, package, entries, consumers⟩ := file
  obtain ⟨filePath', package', entries', consumers'⟩ := other
  obtain rfl : filePath = filePath' := h.path.trans h'.path.symm
  obtain rfl : package = package' := h.package.trans h'.package.symm
  obtain ⟨hentries, hconsumers⟩ := h.items.unique h'.items
  change entries = entries' at hentries
  change consumers = consumers' at hconsumers
  rw [hentries, hconsumers]

end PreferenceInjector.Declaration
