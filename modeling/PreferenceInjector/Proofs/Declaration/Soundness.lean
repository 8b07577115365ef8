import PreferenceInjector.Proofs.Declaration.Outcome
import PreferenceInjector.Proofs.Declaration.Scanning

/-!
# What the grammar reads

Every rule of the grammar reads the text of the tree that it returns and nothing else, and the
pieces of that tree are legal in front of the text left over. The repetition of decorations also
stops only where no modifier follows, which is why no type starts with one.
-/

namespace PreferenceInjector.Declaration

open Reading

/-- The text `s` is that of `pieces` with `rest` after it, and the pieces are legal there. -/
def Reads (s : List Char) (pieces : List Piece) (rest : List Char) : Prop :=
  s = textOf pieces ++ rest ∧ Legal pieces rest

namespace Reads

variable {s r rest : List Char} {left right : List Piece}

/-- Nothing is read. -/
theorem nil (s : List Char) : Reads s [] s := ⟨rfl, trivial⟩

/-- Pieces read after each other. -/
theorem append (hleft : Reads s left r) (hright : Reads r right rest) :
    Reads s (left ++ right) rest := by
  obtain ⟨rfl, hleft⟩ := hleft
  obtain ⟨rfl, hright⟩ := hright
  exact ⟨by simp, legal_append.mpr ⟨hleft, hright⟩⟩

/-- One piece that is legal. -/
theorem single {piece : Piece} (htext : s = piece.text ++ rest) (hlegal : piece.IsLegal rest) :
    Reads s [piece] rest :=
  ⟨by simpa using htext, by simpa [Legal] using hlegal⟩

end Reads

/-! ### Words, gaps and repetitions -/

/-- A keyword or a mark may stand in front of any text. -/
theorem reads_fixed (word : List Char) {s rest : List Char} (h : s = word ++ rest) :
    Reads s [.fixed word] rest :=
  .single h trivial

/-- The gap at the front of a text. -/
theorem gap_gives (s : List Char) :
    (Ending.gap s).Gives fun gap rest => takeGap s = (gap, rest) := rfl

/-- A taken gap is read. -/
theorem reads_gap {s rest : List Char} {gap : Gap} (h : takeGap s = (gap, rest)) :
    Reads s (Gap.pieces gap) rest := by
  have hspec := takeGap_spec s
  rw [h] at hspec
  exact ⟨by simpa using hspec.1, hspec.2.1⟩

/-- An identifier is read. -/
theorem readIdentifier_gives (s : List Char) :
    (readIdentifier s).Gives fun name rest => Reads s [.identifier name] rest := by
  apply atom_gives
  intro name rest h
  obtain ⟨hs, hlegal⟩ := takeIdentifier?_eq_some_iff.mp h
  exact .single hs hlegal

/-- A dotted name is read. -/
theorem readName_gives (s : List Char) :
    (readName s).Gives fun name rest => Reads s [.dotted name] rest := by
  apply atom_gives
  intro name rest h
  obtain ⟨hs, hlegal⟩ := takeName?_spec h
  exact .single hs hlegal

/-- A mark is read with the gap before it. -/
theorem readMark_gives (c : Char) (s : List Char) :
    (readMark c s).Gives fun gap rest => Reads s (Gap.pieces gap ++ [.fixed [c]]) rest := by
  refine (gap_gives s).andThen fun gap r _ hgap => ?_
  refine .map ?_
  intro _ rest h
  exact (reads_gap hgap).append (reads_fixed [c] (mark_gives c r _ _ h))

/-- A repetition reads its items with the gaps before them and stops where the rule fails. -/
theorem repeated_gives_reads {α : Type} {read : (s : List Char) → Reading α s}
    {pieces : α → List Piece} {P : α → Prop}
    (hread : ∀ s, (read s).Gives fun a rest => Reads s (pieces a) rest ∧ P a) (s : List Char) :
    (repeated read s).Gives fun items rest =>
      Reads s (spread pieces items) rest ∧ (∀ item ∈ items, P item.2) ∧
        (read (takeGap rest).2).Fails := by
  refine repeated_gives (P := fun s items rest => Reads s (spread pieces items) rest ∧
    (∀ item ∈ items, P item.2) ∧ (read (takeGap rest).2).Fails) ?_ ?_ s
  · intro s hfails
    exact ⟨.nil s, by simp, hfails⟩
  · intro s a r more rest hfind hrest
    obtain ⟨hmore, hall, hfails⟩ := hrest
    obtain ⟨hitem, ha⟩ := hread _ a r hfind
    refine ⟨?_, List.forall_mem_cons.mpr ⟨ha, hall⟩, hfails⟩
    have h := ((reads_gap rfl).append hitem).append hmore
    simpa [spread] using h

/-! ### Types -/

/-- The brackets of an array dimension are read. -/
theorem readDimension_gives (s : List Char) :
    (readDimension s).Gives fun inside rest => Reads s (bracketPieces inside) rest ∧ True := by
  refine .within _ ?_
  refine (mark_gives '[' s).andThen fun _ r _ hopen => ?_
  intro inside rest h
  refine ⟨?_, trivial⟩
  exact (reads_fixed ['['] hopen).append (readMark_gives ']' r inside rest h)

mutual

/-- A type is read. -/
theorem readType_gives (s : List Char) :
    (readType s).Gives fun type rest => Reads s type.pieces rest := by
  rw [readType]
  refine .within _ ?_
  refine (readName_gives s).finish fun name r _ hname => ?_
  refine (gap_gives r).finish fun gap r₁ _ hgap => ?_
  have hname := hname.append (reads_gap hgap)
  refine (Gives.optional (readTypeArguments_gives r₁) ?_ :
    (optional (readTypeArguments r₁)).Gives fun arguments r₂ =>
      Reads r₁ ((arguments.map fun arguments =>
        .fixed ['<'] :: TypeListTree.pieces arguments).getD []) r₂).finish
    fun arguments r₂ _ harguments => ?_
  · intro _
    exact .nil r₁
  refine (gap_gives r₂).finish fun after r₃ _ hafter => ?_
  refine (repeated_gives_reads readDimension_gives r₃).finish fun dimensions r₄ _ hdimensions => ?_
  have h := ((hname.append harguments).append (reads_gap hafter)).append hdimensions.1
  cases arguments with
  | none => simpa [Ending.Gives, Ending.done, TypeTree.pieces, Dimensions.pieces] using h
  | some arguments => simpa [Ending.Gives, Ending.done, TypeTree.pieces, Dimensions.pieces] using h
termination_by 2 * s.length

/-- Type arguments are read. -/
theorem readTypeArguments_gives (s : List Char) :
    (readTypeArguments s).Gives fun arguments rest =>
      Reads s (.fixed ['<'] :: arguments.pieces) rest := by
  rw [readTypeArguments]
  refine .within _ ?_
  refine (mark_gives '<' s).andThen fun _ r _ hopen => ?_
  intro arguments rest h
  exact (reads_fixed ['<'] hopen).append (readTypeList_gives r arguments rest h)
termination_by 2 * s.length

/-- Types with commas between them are read up to the closing bracket. -/
theorem readTypeList_gives (s : List Char) :
    (readTypeList s).Gives fun types rest => Reads s types.pieces rest := by
  rw [readTypeList]
  refine (gap_gives s).andThen fun before r _ hbefore => ?_
  refine (readType_gives r).andThen fun type r₁ _ htype => ?_
  refine (gap_gives r₁).andThen fun after r₂ _ hafter => ?_
  have h := ((reads_gap hbefore).append htype).append (reads_gap hafter)
  refine .orElse ?_ ?_
  · refine (mark_gives ',' r₂).andThen fun _ r₃ _ hcomma => ?_
    refine .map ?_
    intro types rest htypes
    have htypes := readTypeList_gives r₃ types rest htypes
    have h := h.append ((reads_fixed [','] hcomma).append htypes)
    simpa [TypeListTree.pieces] using h
  · refine .map ?_
    intro _ rest hclose
    have h := h.append (reads_fixed ['>'] (mark_gives '>' r₂ _ rest hclose))
    simpa [TypeListTree.pieces] using h
termination_by 2 * s.length + 1

end

/-! ### Fields -/

/-- An annotation is read. -/
theorem readAnnotated_gives (s : List Char) :
    (readAnnotated s).Gives fun decoration rest => Reads s decoration.pieces rest := by
  refine .within _ ?_
  refine (mark_gives '@' s).andThen fun _ r _ hmark => ?_
  refine (gap_gives r).andThen fun gap r₁ _ hgap => ?_
  have h := (reads_fixed ['@'] hmark).append (reads_gap hgap)
  refine (readName_gives r₁).finish fun name r₂ _ hname => ?_
  refine (gap_gives r₂).finish fun after r₃ _ hafter => ?_
  have h := (h.append hname).append (reads_gap hafter)
  refine (Gives.optional ?_ ?_ : (optional (readArguments r₃)).Gives fun arguments rest =>
    Reads r₃ (arguments.map Piece.arguments).toList rest).finish
    fun arguments r₄ _ harguments => ?_
  · intro text rest hfinds
    obtain ⟨hlen, hfound⟩ := hfinds
    unfold readArguments at hfound
    split at hfound
    · next htake =>
      cases hfound
      obtain ⟨htext, hlegal⟩ := takeArguments?_spec r₃ _ _ htake
      exact .single htext hlegal
    · cases hfound
  · intro _
    exact .nil r₃
  simpa [Ending.Gives, Ending.done, Decoration.pieces] using h.append harguments

/-- A modifier is read. -/
theorem readModifier_gives (s : List Char) :
    (readModifier s).Gives fun decoration rest => Reads s decoration.pieces rest := by
  refine .map (atom_gives ?_)
  intro word rest h
  obtain ⟨hs, hlegal⟩ := takeModifier?_eq_some_iff.mp h
  exact .single hs hlegal

/-- An annotation or a modifier is read. -/
theorem readDecoration_gives (s : List Char) :
    ((readAnnotated s).orElse (readModifier s)).Gives fun decoration rest =>
      Reads s decoration.pieces rest ∧ True := by
  refine .orElse ?_ ?_
  · exact fun decoration rest h => ⟨readAnnotated_gives s decoration rest h, trivial⟩
  · exact fun decoration rest h => ⟨readModifier_gives s decoration rest h, trivial⟩

/-- Where no modifier is read, none is taken. -/
theorem takeModifier?_of_readModifier {s : List Char} (h : (readModifier s).Fails) :
    takeModifier? s = none := by
  cases htake : takeModifier? s with
  | none => rfl
  | some found =>
    have hfinds : (atom .modifier s (takeModifier? s) fun _ _ =>
        length_of_takeModifier?).Finds found.1 found.2 := atom_finds htake
    obtain ⟨hlen, hfound⟩ := hfinds.map Decoration.modifier
    cases h.symm.trans hfound

/-- The first piece of a type is its name. -/
theorem TypeTree.pieces_eq_cons (type : TypeTree) :
    ∃ more, type.pieces = .dotted type.name :: more := by
  cases type with
  | plain name gap dimensions => exact ⟨_, by rw [TypeTree.pieces]; rfl⟩
  | applied name gap arguments after dimensions =>
    exact ⟨Gap.pieces gap ++ .fixed ['<'] :: arguments.pieces ++ Gap.pieces after ++
      Dimensions.pieces dimensions, by simp [TypeTree.pieces, TypeTree.name]⟩

/-- A type that is read where no modifier stands does not start with a modifier word. -/
theorem Reads.first_notMem_modifierWords {s rest : List Char} {type : TypeTree}
    (h : Reads s type.pieces rest) (hnone : takeModifier? s = none) :
    type.name.first ∉ modifierWords := by
  intro hword
  obtain ⟨more, hpieces⟩ := type.pieces_eq_cons
  rw [hpieces] at h
  obtain ⟨htext, ⟨-, hends⟩, -⟩ := h
  have htake : takeModifier? s = some (type.name.first,
      type.name.more.flatMap ('.' :: ·) ++ (textOf more ++ rest)) := by
    rw [takeModifier?_eq_some_iff]
    refine ⟨?_, hword, hends.dots type.name.more⟩
    rw [htext]
    simp [Piece.text, Dotted.text]
  cases hnone.symm.trans htake

/-- A choice fails only when its second side does. -/
theorem Reading.Fails.second {α : Type} {s : List Char} {first second : Reading α s}
    (h : (first.orElse second).Fails) : second.Fails := by
  unfold Fails Reading.orElse at h
  split at h
  · next hfirst => rw [hfirst] at h; cases h
  · exact h

/-- A field is read, and its type does not start with a modifier word. -/
theorem readField_gives (s : List Char) :
    (readField s).Gives fun field rest =>
      Reads s field.pieces rest ∧ field.type.name.first ∉ modifierWords := by
  refine .within _ ?_
  refine (repeated_gives_reads readDecoration_gives s).andThen
    fun decorations r _ hdecorations => ?_
  obtain ⟨h, -, hfails⟩ := hdecorations
  refine (gap_gives r).andThen fun beforeType r₁ _ hgap => ?_
  have h := h.append (reads_gap hgap)
  rw [hgap] at hfails
  refine (readType_gives r₁).andThen fun type r₂ _ htype => ?_
  have hname := htype.first_notMem_modifierWords (takeModifier?_of_readModifier hfails.second)
  refine (gap_gives r₂).andThen fun beforeName r₃ _ hgap => ?_
  have h := (h.append htype).append (reads_gap hgap)
  refine (readIdentifier_gives r₃).andThen fun name r₄ _ hidentifier => ?_
  refine .map ?_
  intro beforeEnd rest hend
  have h := (h.append hidentifier).append (readMark_gives ';' r₄ beforeEnd rest hend)
  exact ⟨by simpa [FieldTree.pieces] using h, hname⟩

/-! ### Blocks -/

/-- The pieces of a block: a keyword, a name, and items in braces. -/
def blockPieces {α : Type} (keyword : String) (pieces : α → List Piece) (beforeName : Gap)
    (name : List Char) (beforeBody : Gap) (items : List (Gap × α)) (beforeEnd : Gap) :
    List Piece :=
  .fixed keyword.toList :: Gap.pieces beforeName ++ .identifier name ::
    Gap.pieces beforeBody ++ .fixed ['\x7b'] :: spread pieces items ++
    Gap.pieces beforeEnd ++ [.fixed ['\x7d']]

/-- A keyword, a name, and items in braces. -/
def readBlock {α β : Type} (rule : Rule) (keyword : String)
    (read : (s : List Char) → Reading α s)
    (make : Gap → List Char → Gap → List (Gap × α) → Gap → β) (s : List Char)
    (nonempty : 0 < keyword.toList.length) : Reading β s :=
  within rule <|
    (word keyword s nonempty).andThen fun _ r _ =>
    (Ending.gap r).andThen fun beforeName r₁ _ =>
    (readIdentifier r₁).andThen fun name r₂ _ =>
    (readMark '\x7b' r₂).andThen fun beforeBody r₃ _ =>
    (repeated read r₃).andThen fun items r₄ _ =>
    (readMark '\x7d' r₄).map fun beforeEnd => make beforeName name beforeBody items beforeEnd

/-- A block is read when its items are. -/
theorem readBlock_gives {α β : Type} {read : (s : List Char) → Reading α s}
    {pieces : α → List Piece} {P : α → Prop} (rule : Rule) (keyword : String)
    (make : Gap → List Char → Gap → List (Gap × α) → Gap → β)
    (hread : ∀ s, (read s).Gives fun a rest => Reads s (pieces a) rest ∧ P a) (s : List Char)
    (nonempty : 0 < keyword.toList.length) :
    (readBlock rule keyword read make s nonempty).Gives fun block rest =>
      ∃ beforeName name beforeBody items beforeEnd,
        block = make beforeName name beforeBody items beforeEnd ∧
        Reads s (blockPieces keyword pieces beforeName name beforeBody items beforeEnd) rest ∧
        ∀ item ∈ items, P item.2 := by
  refine .within _ ?_
  refine (word_gives keyword s _).andThen fun _ r _ hword => ?_
  refine (gap_gives r).andThen fun beforeName r₁ _ hgap => ?_
  have h := (reads_fixed _ hword).append (reads_gap hgap)
  refine (readIdentifier_gives r₁).andThen fun name r₂ _ hname => ?_
  refine (readMark_gives '\x7b' r₂).andThen fun beforeBody r₃ _ hopen => ?_
  have h := (h.append hname).append hopen
  refine (repeated_gives_reads hread r₃).andThen fun items r₄ _ hitems => ?_
  refine .map ?_
  intro beforeEnd rest hclose
  have h := (h.append hitems.1).append (readMark_gives '\x7d' r₄ beforeEnd rest hclose)
  refine ⟨beforeName, name, beforeBody, items, beforeEnd, rfl, ?_, hitems.2.1⟩
  simpa [blockPieces] using h

/-- A class is read, and no type of its fields starts with a modifier word. -/
theorem readClass_gives (s : List Char) :
    (readClass s).Gives fun tree rest => Reads s tree.pieces rest ∧
      ∀ field ∈ tree.fields, field.2.type.name.first ∉ modifierWords := by
  have hblock := readBlock_gives .consumer "class" ClassTree.mk readField_gives s (by decide)
  intro tree rest h
  obtain ⟨beforeName, name, beforeBody, fields, beforeEnd, rfl, hreads, hfields⟩ :=
    hblock tree rest h
  exact ⟨hreads, hfields⟩

/-- A comma and a name are read. -/
theorem readNextName_gives (s : List Char) :
    (readNextName s).Gives fun next rest => Reads s (nextNamePieces next) rest ∧ True := by
  refine (mark_gives ',' s).andThen fun _ r _ hcomma => ?_
  refine (gap_gives r).andThen fun gap r₁ _ hgap => ?_
  refine .map ?_
  intro name rest hname
  refine ⟨?_, trivial⟩
  exact ((reads_fixed [','] hcomma).append (reads_gap hgap)).append
    (readName_gives r₁ name rest hname)

/-- Names with commas between them are read. -/
theorem readNames_gives (s : List Char) :
    (readNames s).Gives fun names rest => Reads s names.pieces rest := by
  refine (gap_gives s).andThen fun beforeFirst r _ hgap => ?_
  refine (readName_gives r).finish fun first r₁ _ hfirst => ?_
  refine (repeated_gives_reads readNextName_gives r₁).finish fun more r₂ _ hmore => ?_
  have h := ((reads_gap hgap).append hfirst).append hmore.1
  simpa [Ending.Gives, Ending.done, NamesTree.pieces] using h

/-- A keyword and names up to a semicolon. -/
def readList (rule : Rule) (keyword : String) (make : NamesTree → Gap → EntryTree) (s : List Char)
    (nonempty : 0 < keyword.toList.length) : Reading EntryTree s :=
  within rule <|
    (word keyword s nonempty).andThen fun _ r _ =>
    (readNames r).andThen fun names r₁ _ =>
    (readMark ';' r₁).map fun beforeEnd => make names beforeEnd

/-- The names of a list are read with its keyword and the semicolon. -/
theorem readList_gives (rule : Rule) (keyword : String) (make : NamesTree → Gap → EntryTree)
    (s : List Char) (nonempty : 0 < keyword.toList.length) :
    (readList rule keyword make s nonempty).Gives fun entry rest =>
      ∃ names beforeEnd, entry = make names beforeEnd ∧
        Reads s (.fixed keyword.toList :: names.pieces ++ Gap.pieces beforeEnd ++ [.fixed [';']])
          rest := by
  refine .within _ ?_
  refine (word_gives keyword s _).andThen fun _ r _ hword => ?_
  refine (readNames_gives r).andThen fun names r₁ _ hnames => ?_
  refine .map ?_
  intro beforeEnd rest hend
  have h := ((reads_fixed _ hword).append hnames).append (readMark_gives ';' r₁ beforeEnd rest hend)
  exact ⟨names, beforeEnd, rfl, by simpa using h⟩

/-- A list of wrappers or of injected classes is read. -/
theorem readEntry_gives (s : List Char) :
    ((readEntities s).orElse (readInject s)).Gives fun entry rest =>
      Reads s entry.pieces rest ∧ True := by
  refine .orElse ?_ ?_
  · intro entry rest h
    obtain ⟨names, beforeEnd, rfl, hreads⟩ :=
      readList_gives .entities "entities" .entities s (by decide) entry rest h
    exact ⟨hreads, trivial⟩
  · intro entry rest h
    obtain ⟨names, beforeEnd, rfl, hreads⟩ :=
      readList_gives .inject "inject" .inject s (by decide) entry rest h
    exact ⟨hreads, trivial⟩

/-- A component is read. -/
theorem readComponent_gives (s : List Char) :
    (readComponent s).Gives fun tree rest => Reads s tree.pieces rest := by
  have hblock := readBlock_gives .component "component" ComponentTree.mk readEntry_gives s
    (by decide)
  intro tree rest h
  obtain ⟨beforeName, name, beforeBody, entries, beforeEnd, rfl, hreads, -⟩ := hblock tree rest h
  exact hreads

/-- The fields of the classes among blocks. -/
def ItemTree.fields : ItemTree → List FieldTree
  | component _ => []
  | consumer tree => tree.fields.map (·.2)

/-- A block is read, and no type of a field in it starts with a modifier word. -/
theorem readItem_gives (s : List Char) :
    (readItem s).Gives fun item rest => Reads s item.pieces rest ∧
      ∀ field ∈ item.fields, field.type.name.first ∉ modifierWords := by
  refine .orElse (.map ?_) (.map ?_)
  · intro tree rest h
    exact ⟨readComponent_gives s tree rest h, by simp [ItemTree.fields]⟩
  · intro tree rest h
    obtain ⟨hreads, hfields⟩ := readClass_gives s tree rest h
    exact ⟨hreads, List.forall_mem_map.mpr hfields⟩

/-! ### Documents -/

/-- A package clause is read. -/
theorem readPackage_gives (s : List Char) :
    (readPackage s).Gives fun tree rest => Reads s tree.pieces rest := by
  refine .within _ ?_
  refine (word_gives "package" s _).andThen fun _ r _ hword => ?_
  refine (gap_gives r).andThen fun beforeName r₁ _ hgap => ?_
  have h := (reads_fixed _ hword).append (reads_gap hgap)
  refine (readName_gives r₁).andThen fun name r₂ _ hname => ?_
  refine .map ?_
  intro beforeEnd rest hend
  have h := (h.append hname).append (readMark_gives ';' r₂ beforeEnd rest hend)
  simpa [PackageTree.pieces] using h

/-- The fields of a document are those of its blocks. -/
theorem Document.mem_fields {document : Document} {field : FieldTree} :
    field ∈ document.fields ↔ ∃ item ∈ document.items, field ∈ item.2.fields := by
  simp only [Document.fields, classTrees, List.mem_flatMap, List.mem_filterMap]
  constructor
  · intro h
    obtain ⟨tree, ⟨⟨gap, item⟩, hitem, htree⟩, hfield⟩ := h
    cases item with
    | component _ => cases htree
    | consumer _ =>
      cases htree
      exact ⟨_, hitem, hfield⟩
  · intro h
    obtain ⟨⟨gap, item⟩, hitem, hfield⟩ := h
    cases item with
    | component _ => cases hfield
    | consumer tree => exact ⟨tree, ⟨_, hitem, rfl⟩, hfield⟩

/-- The document at the front of a text is read. -/
theorem readDocument_gives (s : List Char) :
    (readDocument s).Gives fun document rest => Reads s document.pieces rest ∧
      ∀ field ∈ document.fields, field.type.name.first ∉ modifierWords := by
  refine (gap_gives s).finish fun atStart r _ hgap => ?_
  refine (Gives.optional ?_ ?_ : (optional (readPackage r)).Gives fun package rest =>
    Reads r ((package.map PackageTree.pieces).getD []) rest).finish
    fun package r₁ _ hpackage => ?_
  · exact readPackage_gives r
  · intro _
    exact .nil r
  refine (repeated_gives_reads readItem_gives r₁).finish fun items r₂ _ hitems => ?_
  refine (gap_gives r₂).finish fun atEnd r₃ _ hend => ?_
  have h := (((reads_gap hgap).append hpackage).append hitems.1).append (reads_gap hend)
  refine ⟨by simpa [Ending.done, Document.pieces] using h, ?_⟩
  intro field hfield
  obtain ⟨item, hitem, hfield⟩ := Document.mem_fields.mp hfield
  exact hitems.2.1 item hitem field hfield

end PreferenceInjector.Declaration
