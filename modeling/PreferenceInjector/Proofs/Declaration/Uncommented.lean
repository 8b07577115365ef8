import PreferenceInjector.Proofs.Declaration.Parsing

/-!
# Documents without comments

A document in which every skipped comment is replaced by one blank. Tokens are kept, annotation
arguments among them, and no two of them touch that were apart. So a well-formed document stays
well formed, and its components, classes and fields stay the same but for the texts of the types,
which are the only texts of a document with gaps inside.
-/

namespace PreferenceInjector.Declaration

/-! ### Comments as blanks -/

/-- A comment becomes a blank. -/
def Skipped.uncommented : Skipped → Skipped
  | blank c => .blank c
  | lineComment _ => .blank ' '
  | blockComment _ => .blank ' '

/-- A skipped piece without its comment, and any other piece as it is. -/
def Piece.uncommented : Piece → Piece
  | skipped piece => .skipped piece.uncommented
  | piece => piece

/-- A gap without comments. -/
def Gap.uncommented (gap : Gap) : Gap := gap.map Skipped.uncommented

/-- Array dimensions without comments. -/
def Dimensions.uncommented (dimensions : Dimensions) : Dimensions :=
  dimensions.map fun (before, inside) => (Gap.uncommented before, Gap.uncommented inside)

mutual

/-- A type without comments. -/
def TypeTree.uncommented : TypeTree → TypeTree
  | .plain name gap dimensions =>
    .plain name (Gap.uncommented gap) (Dimensions.uncommented dimensions)
  | .applied name gap arguments after dimensions =>
    .applied name (Gap.uncommented gap) arguments.uncommented (Gap.uncommented after)
      (Dimensions.uncommented dimensions)

/-- Type arguments without comments. -/
def TypeListTree.uncommented : TypeListTree → TypeListTree
  | .last before type after =>
    .last (Gap.uncommented before) type.uncommented (Gap.uncommented after)
  | .cons before type after rest =>
    .cons (Gap.uncommented before) type.uncommented (Gap.uncommented after) rest.uncommented

end

/-- A decoration without comments; annotation arguments keep theirs. -/
def Decoration.uncommented : Decoration → Decoration
  | annotated gap name after arguments =>
    .annotated (Gap.uncommented gap) name (Gap.uncommented after) arguments
  | modifier word => .modifier word

/-- A field without comments. -/
def FieldTree.uncommented (field : FieldTree) : FieldTree where
  decorations := field.decorations.map fun (gap, decoration) =>
    (Gap.uncommented gap, decoration.uncommented)
  beforeType := Gap.uncommented field.beforeType
  type := field.type.uncommented
  beforeName := Gap.uncommented field.beforeName
  name := field.name
  beforeEnd := Gap.uncommented field.beforeEnd

/-- A class without comments. -/
def ClassTree.uncommented (tree : ClassTree) : ClassTree where
  beforeName := Gap.uncommented tree.beforeName
  name := tree.name
  beforeBody := Gap.uncommented tree.beforeBody
  fields := tree.fields.map fun (gap, field) => (Gap.uncommented gap, field.uncommented)
  beforeEnd := Gap.uncommented tree.beforeEnd

/-- A list of names without comments. -/
def NamesTree.uncommented (names : NamesTree) : NamesTree where
  beforeFirst := Gap.uncommented names.beforeFirst
  first := names.first
  more := names.more.map fun (before, after, name) =>
    (Gap.uncommented before, Gap.uncommented after, name)

/-- An entry without comments. -/
def EntryTree.uncommented : EntryTree → EntryTree
  | entities names beforeEnd => .entities names.uncommented (Gap.uncommented beforeEnd)
  | inject names beforeEnd => .inject names.uncommented (Gap.uncommented beforeEnd)

/-- A component without comments. -/
def ComponentTree.uncommented (tree : ComponentTree) : ComponentTree where
  beforeName := Gap.uncommented tree.beforeName
  name := tree.name
  beforeBody := Gap.uncommented tree.beforeBody
  entries := tree.entries.map fun (gap, entry) => (Gap.uncommented gap, entry.uncommented)
  beforeEnd := Gap.uncommented tree.beforeEnd

/-- A block without comments. -/
def ItemTree.uncommented : ItemTree → ItemTree
  | component tree => .component tree.uncommented
  | consumer tree => .consumer tree.uncommented

/-- A package clause without comments. -/
def PackageTree.uncommented (tree : PackageTree) : PackageTree where
  beforeName := Gap.uncommented tree.beforeName
  name := tree.name
  beforeEnd := Gap.uncommented tree.beforeEnd

/-- A document without comments. -/
def Document.uncommented (document : Document) : Document where
  atStart := Gap.uncommented document.atStart
  package := document.package.map PackageTree.uncommented
  items := document.items.map fun (gap, item) => (Gap.uncommented gap, item.uncommented)
  atEnd := Gap.uncommented document.atEnd

/-! ### The pieces of trees without comments -/

section Pieces

variable {α : Type}

/-- The pieces of a gap without comments. -/
theorem Gap.pieces_uncommented (gap : Gap) :
    Gap.pieces (Gap.uncommented gap) = (Gap.pieces gap).map Piece.uncommented := by
  simp [Gap.pieces, Gap.uncommented, Piece.uncommented]

/-- The pieces of items without comments. -/
theorem spread_uncommented {pieces : α → List Piece} {uncommented : α → α}
    (h : ∀ item, pieces (uncommented item) = (pieces item).map Piece.uncommented)
    (items : List (Gap × α)) :
    spread pieces (items.map fun (gap, item) => (Gap.uncommented gap, uncommented item)) =
      (spread pieces items).map Piece.uncommented := by
  induction items with
  | nil => rfl
  | cons item items ih => simp [ih, h, Gap.pieces_uncommented]

/-- The pieces of brackets without comments. -/
theorem bracketPieces_uncommented (inside : Gap) :
    bracketPieces (Gap.uncommented inside) = (bracketPieces inside).map Piece.uncommented := by
  simp [bracketPieces, Gap.pieces_uncommented, Piece.uncommented]

/-- The pieces of array dimensions without comments. -/
theorem Dimensions.pieces_uncommented (dimensions : Dimensions) :
    Dimensions.pieces (Dimensions.uncommented dimensions) =
      (Dimensions.pieces dimensions).map Piece.uncommented :=
  spread_uncommented bracketPieces_uncommented dimensions

mutual

/-- The pieces of a type without comments. -/
theorem TypeTree.pieces_uncommented : (type : TypeTree) →
    type.uncommented.pieces = type.pieces.map Piece.uncommented
  | .plain name gap dimensions => by
    simp [TypeTree.uncommented, TypeTree.pieces, Gap.pieces_uncommented,
      Dimensions.pieces_uncommented, Piece.uncommented]
  | .applied name gap arguments after dimensions => by
    simp [TypeTree.uncommented, TypeTree.pieces, Gap.pieces_uncommented,
      Dimensions.pieces_uncommented, arguments.pieces_uncommented, Piece.uncommented]

/-- The pieces of type arguments without comments. -/
theorem TypeListTree.pieces_uncommented : (types : TypeListTree) →
    types.uncommented.pieces = types.pieces.map Piece.uncommented
  | .last before type after => by
    simp [TypeListTree.uncommented, TypeListTree.pieces, Gap.pieces_uncommented,
      type.pieces_uncommented, Piece.uncommented]
  | .cons before type after rest => by
    simp [TypeListTree.uncommented, TypeListTree.pieces, Gap.pieces_uncommented,
      type.pieces_uncommented, rest.pieces_uncommented, Piece.uncommented]

end

/-- The pieces of a decoration without comments. -/
theorem Decoration.pieces_uncommented (decoration : Decoration) :
    decoration.uncommented.pieces = decoration.pieces.map Piece.uncommented := by
  cases decoration with
  | annotated gap name after arguments =>
    cases arguments with
    | none => simp [Decoration.uncommented, Decoration.pieces, Gap.pieces_uncommented,
        Piece.uncommented]
    | some text => simp [Decoration.uncommented, Decoration.pieces, Gap.pieces_uncommented,
        Piece.uncommented]
  | modifier word => rfl

/-- The pieces of a field without comments. -/
theorem FieldTree.pieces_uncommented (field : FieldTree) :
    field.uncommented.pieces = field.pieces.map Piece.uncommented := by
  simp [FieldTree.uncommented, FieldTree.pieces, Gap.pieces_uncommented,
    spread_uncommented Decoration.pieces_uncommented, TypeTree.pieces_uncommented,
    Piece.uncommented]

/-- The pieces of a class without comments. -/
theorem ClassTree.pieces_uncommented (tree : ClassTree) :
    tree.uncommented.pieces = tree.pieces.map Piece.uncommented := by
  simp [ClassTree.uncommented, ClassTree.pieces, Gap.pieces_uncommented,
    spread_uncommented FieldTree.pieces_uncommented, Piece.uncommented]

/-- The pieces of a list of names without comments. -/
theorem NamesTree.pieces_uncommented (names : NamesTree) :
    names.uncommented.pieces = names.pieces.map Piece.uncommented := by
  have hnext : ∀ next : Gap × Dotted, nextNamePieces (Gap.uncommented next.1, next.2) =
      (nextNamePieces next).map Piece.uncommented := by
    intro next
    simp [nextNamePieces, Gap.pieces_uncommented, Piece.uncommented]
  have hmore := spread_uncommented hnext names.more
  simpa [NamesTree.uncommented, NamesTree.pieces, Gap.pieces_uncommented, Piece.uncommented]
    using hmore

/-- The pieces of an entry without comments. -/
theorem EntryTree.pieces_uncommented (entry : EntryTree) :
    entry.uncommented.pieces = entry.pieces.map Piece.uncommented := by
  cases entry with
  | entities names beforeEnd =>
    simp [EntryTree.uncommented, EntryTree.pieces, Gap.pieces_uncommented,
      NamesTree.pieces_uncommented, Piece.uncommented]
  | inject names beforeEnd =>
    simp [EntryTree.uncommented, EntryTree.pieces, Gap.pieces_uncommented,
      NamesTree.pieces_uncommented, Piece.uncommented]

/-- The pieces of a component without comments. -/
theorem ComponentTree.pieces_uncommented (tree : ComponentTree) :
    tree.uncommented.pieces = tree.pieces.map Piece.uncommented := by
  simp [ComponentTree.uncommented, ComponentTree.pieces, Gap.pieces_uncommented,
    spread_uncommented EntryTree.pieces_uncommented, Piece.uncommented]

/-- The pieces of a block without comments. -/
theorem ItemTree.pieces_uncommented (item : ItemTree) :
    item.uncommented.pieces = item.pieces.map Piece.uncommented := by
  cases item with
  | component tree => exact tree.pieces_uncommented
  | consumer tree => exact tree.pieces_uncommented

/-- The pieces of a package clause without comments. -/
theorem PackageTree.pieces_uncommented (tree : PackageTree) :
    tree.uncommented.pieces = tree.pieces.map Piece.uncommented := by
  simp [PackageTree.uncommented, PackageTree.pieces, Gap.pieces_uncommented, Piece.uncommented]

/-- The pieces of a document without comments. -/
theorem Document.pieces_uncommented (document : Document) :
    document.uncommented.pieces = document.pieces.map Piece.uncommented := by
  have hitems := spread_uncommented ItemTree.pieces_uncommented document.items
  cases hpackage : document.package with
  | none => simp [Document.uncommented, Document.pieces, Gap.pieces_uncommented, hpackage, hitems]
  | some package =>
    simp [Document.uncommented, Document.pieces, Gap.pieces_uncommented, hpackage, hitems,
      PackageTree.pieces_uncommented]

end Pieces

/-! ### Legality -/

/-- A piece without its comment has the same text or is a blank. -/
theorem Piece.text_uncommented (piece : Piece) :
    piece.uncommented.text = piece.text ∨ piece.uncommented.text = [' '] := by
  cases piece with
  | skipped piece =>
    cases piece with
    | blank c => exact Or.inl rfl
    | lineComment body => exact Or.inr rfl
    | blockComment body => exact Or.inr rfl
  | _ => exact Or.inl rfl

/-- A name that ends in front of comments ends in front of blanks. -/
theorem endsName_uncommented {pieces : List Piece} (h : EndsName (textOf pieces ++ [])) :
    EndsName (textOf (pieces.map Piece.uncommented) ++ []) := by
  induction pieces with
  | nil => exact h
  | cons piece pieces ih =>
    rw [textOf_cons, List.append_assoc] at h
    rw [List.map_cons, textOf_cons, List.append_assoc]
    rcases piece.text_uncommented with htext | htext
    · rw [htext]
      cases hempty : piece.text with
      | nil =>
        rw [hempty] at h
        exact ih h
      | cons c text =>
        rw [hempty] at h
        exact h
    · rw [htext]
      intro c hc
      cases hc
      decide

/-- Legal pieces are legal without comments. -/
theorem Legal.uncommented {pieces : List Piece} (h : Legal pieces []) :
    Legal (pieces.map Piece.uncommented) [] := by
  induction pieces with
  | nil => trivial
  | cons piece pieces ih =>
    obtain ⟨hpiece, hpieces⟩ := h
    refine ⟨?_, ih hpieces⟩
    cases piece with
    | skipped piece =>
      cases piece with
      | blank c => exact hpiece
      | lineComment body => exact (by decide : isBlank ' ' = true)
      | blockComment body => exact (by decide : isBlank ' ' = true)
    | fixed text => trivial
    | identifier name => exact ⟨hpiece.1, endsName_uncommented hpiece.2⟩
    | dotted name => exact ⟨hpiece.1, endsName_uncommented hpiece.2⟩
    | modifier word => exact ⟨hpiece.1, endsName_uncommented hpiece.2⟩
    | arguments text => exact hpiece

/-- The components among blocks without comments. -/
theorem componentTrees_uncommented (items : List (Gap × ItemTree)) :
    componentTrees (items.map fun (gap, item) => (Gap.uncommented gap, item.uncommented)) =
      (componentTrees items).map ComponentTree.uncommented := by
  induction items with
  | nil => rfl
  | cons item items ih =>
    obtain ⟨gap, item⟩ := item
    cases item with
    | component tree => exact congrArg (tree.uncommented :: ·) ih
    | consumer tree => exact ih

/-- The classes among blocks without comments. -/
theorem classTrees_uncommented (items : List (Gap × ItemTree)) :
    classTrees (items.map fun (gap, item) => (Gap.uncommented gap, item.uncommented)) =
      (classTrees items).map ClassTree.uncommented := by
  induction items with
  | nil => rfl
  | cons item items ih =>
    obtain ⟨gap, item⟩ := item
    cases item with
    | component tree => exact ih
    | consumer tree => exact congrArg (tree.uncommented :: ·) ih

/-- The fields of a document without comments. -/
theorem Document.fields_uncommented (document : Document) :
    document.uncommented.fields = document.fields.map FieldTree.uncommented := by
  rw [Document.fields, Document.uncommented, classTrees_uncommented, List.flatMap_map,
    Document.fields, List.map_flatMap]
  apply List.flatMap_congr
  intro tree _
  simp [ClassTree.uncommented]

/-- A type without comments starts with the same name. -/
theorem TypeTree.name_uncommented (type : TypeTree) : type.uncommented.name = type.name := by
  cases type with
  | plain name gap dimensions =>
    rw [TypeTree.uncommented]
    rfl
  | applied name gap arguments after dimensions =>
    rw [TypeTree.uncommented]
    rfl

/-- A well-formed document is well formed without comments. -/
theorem Document.WellFormed.uncommented {document : Document} (h : document.WellFormed) :
    document.uncommented.WellFormed := by
  constructor
  · rw [Document.pieces_uncommented]
    exact h.legal.uncommented
  · rw [Document.fields_uncommented, List.forall_mem_map]
    intro field hfield
    have hname := h.typeNames field hfield
    rwa [← TypeTree.name_uncommented] at hname

/-- No comment is left in a field without comments. -/
theorem FieldTree.typeIsBare_uncommented (field : FieldTree) : field.uncommented.TypeIsBare := by
  intro piece hpiece
  have hpieces : field.uncommented.type.pieces ++ Gap.pieces field.uncommented.beforeName =
      (field.type.pieces ++ Gap.pieces field.beforeName).map Piece.uncommented := by
    rw [List.map_append, ← TypeTree.pieces_uncommented, ← Gap.pieces_uncommented]
    rfl
  rw [hpieces, List.mem_map] at hpiece
  obtain ⟨original, -, horiginal⟩ := hpiece
  cases original with
  | skipped skipped =>
    cases skipped with
    | blank c =>
      cases horiginal
      exact id
    | lineComment body =>
      cases horiginal
      exact id
    | blockComment body =>
      cases horiginal
      exact id
  | _ => cases horiginal

/-! ### What is declared -/

/-- A list without comments holds the same names. -/
theorem NamesTree.names_uncommented (names : NamesTree) :
    names.uncommented.names = names.names := by
  simp [NamesTree.names, NamesTree.uncommented]

/-- A component without comments is built in the same way. -/
theorem ComponentTree.entry_uncommented (tree : ComponentTree) (package : String) :
    tree.uncommented.entry package = tree.entry package := by
  have hwrappers : ∀ entry : EntryTree, entry.uncommented.wrappers = entry.wrappers := by
    intro entry
    cases entry with
    | entities names beforeEnd => exact congrArg (List.map _) names.names_uncommented
    | inject names beforeEnd => rfl
  have htargets : ∀ entry : EntryTree,
      entry.uncommented.targets package = entry.targets package := by
    intro entry
    cases entry with
    | entities names beforeEnd => rfl
    | inject names beforeEnd => exact congrArg (List.map _) names.names_uncommented
  simp only [ComponentTree.entry, ComponentTree.uncommented, List.flatMap_map, hwrappers, htargets]

/-- A decoration without comments marks its field in the same way. -/
theorem Decoration.isMarker_uncommented (decoration : Decoration) :
    decoration.uncommented.isMarker = decoration.isMarker := by
  cases decoration with
  | annotated gap name after arguments => rfl
  | modifier word => rfl

/-- A field without comments has the same name and the same mark. -/
theorem FieldTree.field_uncommented (field : FieldTree) :
    field.uncommented.field.name = field.field.name ∧
      field.uncommented.field.marked = field.field.marked := by
  refine ⟨rfl, ?_⟩
  simp [FieldTree.field, FieldTree.uncommented, List.any_map, Function.comp_def,
    Decoration.isMarker_uncommented]

/-- Pieces without comments have the same text when no comment is among them. -/
theorem textOf_uncommented {pieces : List Piece}
    (h : ∀ piece, .skipped piece ∈ pieces → ¬ piece.IsComment) :
    textOf (pieces.map Piece.uncommented) = textOf pieces := by
  have hsame : pieces.map Piece.uncommented = pieces.map id := by
    apply List.map_congr_left
    intro piece hmem
    cases piece with
    | skipped skipped =>
      cases skipped with
      | blank c => rfl
      | lineComment body => exact (h _ hmem trivial).elim
      | blockComment body => exact (h _ hmem trivial).elim
    | _ => rfl
  rw [hsame, List.map_id]

/-- A field with a bare type declares the same without comments. -/
theorem FieldTree.TypeIsBare.field_uncommented {field : FieldTree} (h : field.TypeIsBare) :
    field.uncommented.field = field.field := by
  obtain ⟨-, hmarked⟩ := FieldTree.field_uncommented field
  have htext : field.uncommented.type.text = field.type.text := by
    rw [← TypeTree.textOf_pieces, ← TypeTree.textOf_pieces, FieldTree.uncommented,
      TypeTree.pieces_uncommented]
    exact textOf_uncommented fun piece hpiece => h piece (List.mem_append_left _ hpiece)
  have hmarked : field.uncommented.decorations.any (·.2.isMarker) =
      field.decorations.any (·.2.isMarker) := hmarked
  rw [FieldTree.field, FieldTree.field, htext, hmarked]
  rfl

/-- The package of a document without comments. -/
theorem Document.packageName_uncommented (document : Document) :
    document.uncommented.packageName = document.packageName := by
  rw [Document.packageName, Document.packageName, Document.uncommented, Option.map_map]
  rfl

/-! ### Sources -/

/-- A source with one blank in place of each comment between its tokens. -/
def uncomment (source : String) : String :=
  match Document.ofText? source.toList with
  | some document => String.ofList (textOf (document.pieces.map Piece.uncommented))
  | none => source

/-- A source without comments is parsed as the document without comments. -/
theorem File.ofText_uncomment {source : String} {document : Document}
    (h : Document.ofText? source.toList = some document) (path : String) :
    File.ofText path (uncomment source) = document.uncommented.file path := by
  have hformed := (Document.of_ofText? h).1.uncommented
  have htext : uncomment source = String.ofList document.uncommented.text := by
    rw [uncomment, h, ← Document.textOf_pieces, Document.pieces_uncommented]
  have hbare : ∀ field ∈ document.uncommented.fields, field.TypeIsBare := by
    rw [Document.fields_uncommented, List.forall_mem_map]
    exact fun field _ => field.typeIsBare_uncommented
  rw [htext, File.ofText_text hformed, hformed.settle_file hbare]

end PreferenceInjector.Declaration
