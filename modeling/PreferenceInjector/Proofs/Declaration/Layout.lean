import PreferenceInjector.Declaration.File

/-!
# Layouts of declaration files

A document is an abstract file together with a choice of gaps: between any two tokens it has at
least one gap, and each gap is a list of blanks and comments. Written out in order, its tokens and
skipped pieces are its layout. A layout is legal when every name is made of identifiers, every
annotation argument is balanced, every comment is complete, and no name runs into an identifier
character after it. Keywords and punctuation may touch whatever follows them.

Where two gaps follow each other without a token between them, only their joint content matters.
-/

namespace PreferenceInjector.Declaration

/-- A token or a skipped piece of a declaration file. -/
inductive Piece where
  /-- A blank or a comment. -/
  | skipped (piece : Skipped)
  /-- A keyword or a punctuation mark. -/
  | fixed (text : List Char)
  /-- A name without dots. -/
  | identifier (name : List Char)
  /-- A name of identifiers with dots between them. -/
  | dotted (name : Dotted)
  /-- A modifier word. -/
  | modifier (word : List Char)
  /-- The arguments of an annotation with their parentheses. -/
  | arguments (text : List Char)

/-- The text of a piece. -/
def Piece.text : Piece → List Char
  | skipped piece => piece.text
  | fixed text => text
  | identifier name => name
  | dotted name => name.text
  | modifier word => word
  | arguments text => text

/-- The text of pieces that follow each other. -/
def textOf (pieces : List Piece) : List Char := pieces.flatMap Piece.text

/-! The pieces of a tree in the order of its text. -/

/-- The pieces of a gap. -/
def Gap.pieces (gap : Gap) : List Piece := gap.map .skipped

/-- The pieces of items that each stand after a gap. -/
def spread {α : Type} (pieces : α → List Piece) (items : List (Gap × α)) : List Piece :=
  items.flatMap fun (gap, item) => Gap.pieces gap ++ pieces item

/-- The pieces of the brackets of an array dimension. -/
def bracketPieces (inside : Gap) : List Piece :=
  .fixed ['['] :: Gap.pieces inside ++ [.fixed [']']]

/-- The pieces of array dimensions. -/
def Dimensions.pieces (dimensions : Dimensions) : List Piece := spread bracketPieces dimensions

mutual

/-- The pieces of a type. -/
def TypeTree.pieces : TypeTree → List Piece
  | .plain name gap dimensions =>
    .dotted name :: Gap.pieces gap ++ Dimensions.pieces dimensions
  | .applied name gap arguments after dimensions =>
    .dotted name :: Gap.pieces gap ++ .fixed ['<'] :: arguments.pieces ++ Gap.pieces after ++
      Dimensions.pieces dimensions

/-- The pieces of type arguments with the closing bracket. -/
def TypeListTree.pieces : TypeListTree → List Piece
  | .last before type after =>
    Gap.pieces before ++ type.pieces ++ Gap.pieces after ++ [.fixed ['>']]
  | .cons before type after rest =>
    Gap.pieces before ++ type.pieces ++ Gap.pieces after ++ .fixed [','] :: rest.pieces

end

/-- The pieces of a decoration. -/
def Decoration.pieces : Decoration → List Piece
  | annotated gap name after arguments =>
    .fixed ['@'] :: Gap.pieces gap ++ .dotted name :: Gap.pieces after ++
      (arguments.map Piece.arguments).toList
  | modifier word => [.modifier word]

/-- The pieces of a field declaration. -/
def FieldTree.pieces (field : FieldTree) : List Piece :=
  spread Decoration.pieces field.decorations ++ Gap.pieces field.beforeType ++
    field.type.pieces ++ Gap.pieces field.beforeName ++ .identifier field.name ::
    Gap.pieces field.beforeEnd ++ [.fixed [';']]

/-- The pieces of a class declaration. -/
def ClassTree.pieces (tree : ClassTree) : List Piece :=
  .fixed "class".toList :: Gap.pieces tree.beforeName ++ .identifier tree.name ::
    Gap.pieces tree.beforeBody ++ .fixed ['\x7b'] :: spread FieldTree.pieces tree.fields ++
    Gap.pieces tree.beforeEnd ++ [.fixed ['\x7d']]

/-- The pieces of a comma and the name after it. -/
def nextNamePieces (next : Gap × Dotted) : List Piece :=
  .fixed [','] :: Gap.pieces next.1 ++ [.dotted next.2]

/-- The pieces of a list of names. -/
def NamesTree.pieces (tree : NamesTree) : List Piece :=
  Gap.pieces tree.beforeFirst ++ .dotted tree.first :: spread nextNamePieces tree.more

/-- The pieces of an entry. -/
def EntryTree.pieces : EntryTree → List Piece
  | entities names beforeEnd =>
    .fixed "entities".toList :: names.pieces ++ Gap.pieces beforeEnd ++ [.fixed [';']]
  | inject names beforeEnd =>
    .fixed "inject".toList :: names.pieces ++ Gap.pieces beforeEnd ++ [.fixed [';']]

/-- The pieces of a component declaration. -/
def ComponentTree.pieces (tree : ComponentTree) : List Piece :=
  .fixed "component".toList :: Gap.pieces tree.beforeName ++ .identifier tree.name ::
    Gap.pieces tree.beforeBody ++ .fixed ['\x7b'] :: spread EntryTree.pieces tree.entries ++
    Gap.pieces tree.beforeEnd ++ [.fixed ['\x7d']]

/-- The pieces of a block. -/
def ItemTree.pieces : ItemTree → List Piece
  | component tree => tree.pieces
  | consumer tree => tree.pieces

/-- The pieces of a package clause. -/
def PackageTree.pieces (tree : PackageTree) : List Piece :=
  .fixed "package".toList :: Gap.pieces tree.beforeName ++ .dotted tree.name ::
    Gap.pieces tree.beforeEnd ++ [.fixed [';']]

/-- The pieces of a declaration file. -/
def Document.pieces (document : Document) : List Piece :=
  Gap.pieces document.atStart ++ (document.package.map PackageTree.pieces).getD [] ++
    spread ItemTree.pieces document.items ++ Gap.pieces document.atEnd

/-! What makes a piece legal in front of a text. -/

/-- A letter, an underscore or a dollar sign, followed by these and digits, all of them ASCII. -/
def IsIdentifier : List Char → Prop
  | [] => False
  | c :: rest => isIdentifierStart c = true ∧ ∀ d ∈ rest, isIdentifierPart d = true

instance : (name : List Char) → Decidable (IsIdentifier name)
  | [] => .isFalse id
  | c :: rest =>
    -- The search goes through the list, never through all characters.
    have : Decidable (∀ d ∈ rest, isIdentifierPart d = true) := List.decidableBAll _ _
    inferInstanceAs (Decidable (isIdentifierStart c = true ∧ ∀ d ∈ rest, isIdentifierPart d = true))

/-- Every part of a dotted name is an identifier. -/
def Dotted.IsLegal (name : Dotted) : Prop :=
  IsIdentifier name.first ∧ ∀ part ∈ name.more, IsIdentifier part

/-- A text in front of which a name can end. -/
def EndsName (rest : List Char) : Prop := ∀ c ∈ rest.head?, isIdentifierPart c = false

/-- A literal after its opening quote up to the closing one: a backslash takes the next character
along, and no other character is the quote. -/
inductive Quoted (quote : Char) : List Char → Prop where
  | close : Quoted quote [quote]
  | escaped {c : Char} {rest : List Char} : Quoted quote rest → Quoted quote ('\\' :: c :: rest)
  | plain {c : Char} {rest : List Char} : c ≠ quote → c ≠ '\\' → Quoted quote rest →
      Quoted quote (c :: rest)

/-- Balanced text: literals, balanced text in parentheses, and characters that are neither quotes
nor parentheses. -/
inductive Balanced : List Char → Prop where
  | empty : Balanced []
  | literal {quote : Char} {body rest : List Char} : quote = '"' ∨ quote = '\'' →
      Quoted quote body → Balanced rest → Balanced (quote :: body ++ rest)
  | nested {inner rest : List Char} : Balanced inner → Balanced rest →
      Balanced ('(' :: inner ++ ')' :: rest)
  | plain {c : Char} {rest : List Char} : isArgumentMark c = false → Balanced rest →
      Balanced (c :: rest)

/-- Balanced text in parentheses. -/
def IsArguments (text : List Char) : Prop := ∃ inner, Balanced inner ∧ text = '(' :: inner ++ [')']

/-- A skipped piece is complete in front of `rest`: a line comment holds no line end and is closed
by one or by the end of the text, and a block comment is closed by the first mark that can do so. -/
def Skipped.IsComplete : Skipped → List Char → Prop
  | blank c, _ => isBlank c = true
  | lineComment body, rest =>
    (∀ c ∈ body, isLineEnd c = false) ∧ ∀ c ∈ rest.head?, isLineEnd c = true
  | blockComment body, _ => ¬ ['*', '/'] <:+: body

/-- A piece is legal in front of `rest`. -/
def Piece.IsLegal : Piece → List Char → Prop
  | skipped piece, rest => piece.IsComplete rest
  | fixed _, _ => True
  | identifier name, rest => IsIdentifier name ∧ EndsName rest
  | dotted name, rest => name.IsLegal ∧ EndsName rest
  | modifier word, rest => word ∈ modifierWords ∧ EndsName rest
  | arguments text, _ => IsArguments text

/-- Every piece is legal in front of those after it, the last one in front of `rest`. -/
def Legal : List Piece → List Char → Prop
  | [], _ => True
  | piece :: pieces, rest => piece.IsLegal (textOf pieces ++ rest) ∧ Legal pieces rest

/-- The name that a type starts with. -/
def TypeTree.name : TypeTree → Dotted
  | .plain name .. | .applied name .. => name

/-- The fields of all classes of a document. -/
def Document.fields (document : Document) : List FieldTree :=
  (classTrees document.items).flatMap fun tree => tree.fields.map (·.2)

/-- A document is well formed: its pieces are legal up to the end of the text, and no type of a
field starts with a modifier word. -/
structure Document.WellFormed (document : Document) : Prop where
  legal : Legal document.pieces []
  typeNames : ∀ field ∈ document.fields, field.type.name.first ∉ modifierWords

/-! Pieces and their texts follow each other part by part. -/

section Pieces

variable {α : Type} {left right : List Piece} {rest : List Char}

/-- No pieces have no text. -/
@[simp] theorem textOf_nil : textOf [] = [] := rfl

/-- The text of a piece and those after it. -/
@[simp] theorem textOf_cons (piece : Piece) (pieces : List Piece) :
    textOf (piece :: pieces) = piece.text ++ textOf pieces := by
  simp [textOf]

/-- The text of pieces in two parts. -/
@[simp] theorem textOf_append (left right : List Piece) :
    textOf (left ++ right) = textOf left ++ textOf right := by
  simp [textOf]

/-- An empty gap has no pieces. -/
@[simp] theorem Gap.pieces_nil : Gap.pieces [] = [] := rfl

/-- The pieces of two gaps are those of the joint gap. -/
@[simp] theorem Gap.pieces_append (first second : Gap) :
    Gap.pieces (first ++ second) = Gap.pieces first ++ Gap.pieces second := by
  simp [Gap.pieces]

/-- An empty gap has no text. -/
@[simp] theorem Gap.text_nil : Gap.text [] = [] := rfl

/-- The text of a gap is that of its pieces. -/
@[simp] theorem textOf_pieces_gap (gap : Gap) : textOf (Gap.pieces gap) = Gap.text gap := by
  simp [textOf, Gap.pieces, Gap.text, List.flatMap_map, Piece.text]

/-- No items have no pieces. -/
@[simp] theorem spread_nil (pieces : α → List Piece) : spread pieces [] = [] := rfl

/-- The pieces of an item and those after it. -/
@[simp] theorem spread_cons (pieces : α → List Piece) (item : Gap × α) (items : List (Gap × α)) :
    spread pieces (item :: items) =
      Gap.pieces item.1 ++ (pieces item.2 ++ spread pieces items) := by
  simp [spread]

/-- No pieces are legal anywhere. -/
@[simp] theorem legal_nil : Legal [] rest := trivial

/-- A piece and those after it. -/
@[simp] theorem legal_cons {piece : Piece} {pieces : List Piece} :
    Legal (piece :: pieces) rest ↔ piece.IsLegal (textOf pieces ++ rest) ∧ Legal pieces rest :=
  Iff.rfl

/-- Pieces in two parts are legal when each part is in front of what follows it. -/
@[simp] theorem legal_append :
    Legal (left ++ right) rest ↔ Legal left (textOf right ++ rest) ∧ Legal right rest := by
  induction left with
  | nil => simp
  | cons piece left ih => simp [ih, and_assoc]

end Pieces

/-! The text of a tree is that of its pieces. -/

/-- The text of items that each stand after a gap. -/
theorem textOf_spread {α : Type} (pieces : α → List Piece) (items : List (Gap × α)) :
    textOf (spread pieces items) =
      items.flatMap fun (gap, item) => Gap.text gap ++ textOf (pieces item) := by
  induction items with
  | nil => rfl
  | cons item items ih => simp [ih]

/-- The text of array dimensions is that of their pieces. -/
theorem Dimensions.textOf_pieces (dimensions : Dimensions) :
    textOf (Dimensions.pieces dimensions) = Dimensions.text dimensions := by
  simp [Dimensions.pieces, Dimensions.text, textOf_spread, bracketPieces, Piece.text]

mutual

/-- The text of a type is that of its pieces. -/
theorem TypeTree.textOf_pieces : (type : TypeTree) → textOf type.pieces = type.text
  | .plain name gap dimensions => by
    simp [TypeTree.pieces, TypeTree.text, Piece.text, Dimensions.textOf_pieces]
  | .applied name gap arguments after dimensions => by
    simp [TypeTree.pieces, TypeTree.text, Piece.text, Dimensions.textOf_pieces,
      arguments.textOf_pieces]

/-- The text of type arguments is that of their pieces. -/
theorem TypeListTree.textOf_pieces : (types : TypeListTree) → textOf types.pieces = types.text
  | .last before type after => by
    simp [TypeListTree.pieces, TypeListTree.text, Piece.text, type.textOf_pieces]
  | .cons before type after rest => by
    simp [TypeListTree.pieces, TypeListTree.text, Piece.text, type.textOf_pieces,
      rest.textOf_pieces]

end

/-- The text of a decoration is that of its pieces. -/
theorem Decoration.textOf_pieces (decoration : Decoration) :
    textOf decoration.pieces = decoration.text := by
  cases decoration with
  | annotated gap name after arguments =>
    cases arguments with
    | none => simp [Decoration.pieces, Decoration.text, Piece.text]
    | some text => simp [Decoration.pieces, Decoration.text, Piece.text]
  | modifier word => simp [Decoration.pieces, Decoration.text, Piece.text]

/-- The text of a field is that of its pieces. -/
theorem FieldTree.textOf_pieces (field : FieldTree) : textOf field.pieces = field.text := by
  simp [FieldTree.pieces, FieldTree.text, textOf_spread, Piece.text, Decoration.textOf_pieces,
    TypeTree.textOf_pieces]

/-- The text of a class is that of its pieces. -/
theorem ClassTree.textOf_pieces (tree : ClassTree) : textOf tree.pieces = tree.text := by
  unfold ClassTree.pieces ClassTree.text
  simp [textOf_spread, Piece.text, FieldTree.textOf_pieces]

/-- The text of a list of names is that of its pieces. -/
theorem NamesTree.textOf_pieces (names : NamesTree) : textOf names.pieces = names.text := by
  simp [NamesTree.pieces, NamesTree.text, textOf_spread, Piece.text, nextNamePieces]

/-- The text of an entry is that of its pieces. -/
theorem EntryTree.textOf_pieces (entry : EntryTree) : textOf entry.pieces = entry.text := by
  cases entry with
  | entities names beforeEnd =>
    unfold EntryTree.pieces EntryTree.text
    simp [Piece.text, NamesTree.textOf_pieces]
  | inject names beforeEnd =>
    unfold EntryTree.pieces EntryTree.text
    simp [Piece.text, NamesTree.textOf_pieces]

/-- The text of a component is that of its pieces. -/
theorem ComponentTree.textOf_pieces (tree : ComponentTree) : textOf tree.pieces = tree.text := by
  unfold ComponentTree.pieces ComponentTree.text
  simp [textOf_spread, Piece.text,
    EntryTree.textOf_pieces]

/-- The text of a block is that of its pieces. -/
theorem ItemTree.textOf_pieces (item : ItemTree) : textOf item.pieces = item.text := by
  cases item with
  | component tree => exact tree.textOf_pieces
  | consumer tree => exact tree.textOf_pieces

/-- The text of a package clause is that of its pieces. -/
theorem PackageTree.textOf_pieces (tree : PackageTree) : textOf tree.pieces = tree.text := by
  unfold PackageTree.pieces PackageTree.text
  simp [Piece.text]

/-- The text of a document is that of its pieces. -/
theorem Document.textOf_pieces (document : Document) :
    textOf document.pieces = document.text := by
  obtain ⟨atStart, package, items, atEnd⟩ := document
  cases package with
  | none => simp [Document.pieces, Document.text, textOf_spread, ItemTree.textOf_pieces]
  | some package =>
    simp [Document.pieces, Document.text, textOf_spread, ItemTree.textOf_pieces,
      PackageTree.textOf_pieces]

end PreferenceInjector.Declaration
