import PreferenceInjector.Proofs.Declaration.Completeness.Document

/-!
# The first block that cannot be read

A text that is no declaration file is read from its start as far as it goes: a package clause if
one stands there, then one block after the other, each behind its gap. Reading stops where no block
stands, behind all blanks and comments. This place is described by the grammar alone; every text
has exactly one, and it is where the reading of a document ends.
-/

namespace PreferenceInjector.Declaration

open Reading

/-- The text begins with a gap and a block, behind which `rest` is left. -/
def BeginsWithBlock (s rest : List Char) : Prop :=
  ∃ (gap : Gap) (item : ItemTree), Reads s (Gap.pieces gap ++ item.pieces) rest ∧
    ∀ field ∈ item.fields, field.type.name.first ∉ modifierWords

/-- The text begins with a gap and a package clause, behind which `rest` is left. -/
def BeginsWithPackage (s rest : List Char) : Prop :=
  ∃ (gap : Gap) (tree : PackageTree), Reads s (Gap.pieces gap ++ tree.pieces) rest

/-- The text begins with a gap, behind which `rest` is left and no blank or comment stands. -/
def BeginsWithGap (s rest : List Char) : Prop :=
  (∃ gap : Gap, Reads s (Gap.pieces gap) rest) ∧
    ∀ (piece : Skipped) (r : List Char), ¬ Reads rest [.skipped piece] r

/-- One block after the other is read up to `rest`, where no block stands. -/
inductive BlocksEndAt : List Char → List Char → Prop
  | stop {s rest : List Char} (hnone : ∀ r, ¬ BeginsWithBlock s r) (hgap : BeginsWithGap s rest) :
      BlocksEndAt s rest
  | block {s r rest : List Char} (hblock : BeginsWithBlock s r) (hrest : BlocksEndAt r rest) :
      BlocksEndAt s rest

/-- A package clause is read if there is one, and then the blocks up to `rest`, where no block
stands. -/
inductive ReadingEndsAt : List Char → List Char → Prop
  | package {s r rest : List Char} (hpackage : BeginsWithPackage s r)
      (hblocks : BlocksEndAt r rest) : ReadingEndsAt s rest
  | noPackage {s rest : List Char} (hnone : ∀ r, ¬ BeginsWithPackage s r)
      (hblocks : BlocksEndAt s rest) : ReadingEndsAt s rest

variable {s r rest : List Char}

/-! ### What stands at the front of a text -/

/-- A gap in front of a text that starts a token, and what follows it. -/
theorem takeGap_of_reads {gap : Gap} {pieces : List Piece}
    (h : Reads s (Gap.pieces gap ++ pieces) rest) (htoken : StartsToken (textOf pieces ++ rest)) :
    takeGap s = (gap, textOf pieces ++ rest) ∧ Legal pieces rest := by
  obtain ⟨rfl, hlegal⟩ := h
  obtain ⟨hgap, hpieces⟩ := legal_append.mp hlegal
  have htext : textOf (Gap.pieces gap ++ pieces) ++ rest =
      Gap.text gap ++ (textOf pieces ++ rest) := by simp
  exact ⟨by rw [htext, takeGap_append hgap htoken], hpieces⟩

/-- A block stands at the front of a text exactly when one is read behind the gap. -/
theorem beginsWithBlock_iff :
    BeginsWithBlock s rest ↔ ∃ item, (readItem (takeGap s).2).Finds item rest := by
  constructor
  · rintro ⟨gap, item, hreads, hwords⟩
    obtain ⟨hgap, hlegal⟩ := takeGap_of_reads hreads (item.startsToken rest)
    rw [hgap]
    exact ⟨_, readItem_finds hlegal hwords⟩
  · rintro ⟨item, hitem⟩
    obtain ⟨hreads, hwords⟩ := readItem_gives _ item rest hitem
    exact ⟨_, item, (reads_gap rfl).append hreads, hwords⟩

/-- A package clause stands at the front of a text exactly when one is read behind the gap. -/
theorem beginsWithPackage_iff :
    BeginsWithPackage s rest ↔ ∃ tree, (readPackage (takeGap s).2).Finds tree rest := by
  constructor
  · rintro ⟨gap, tree, hreads⟩
    obtain ⟨hgap, hlegal⟩ := takeGap_of_reads hreads
      (startsToken_of_isIdentifierStart (c := 'p') (by decide) _)
    rw [hgap]
    exact ⟨tree, readPackage_finds hlegal⟩
  · rintro ⟨tree, htree⟩
    exact ⟨_, tree, (reads_gap rfl).append (readPackage_gives _ tree rest htree)⟩

/-- The gap at the front of a text goes as far as it is taken. -/
theorem beginsWithGap_takeGap (s : List Char) : BeginsWithGap s (takeGap s).2 := by
  obtain ⟨-, -, hend⟩ := takeGap_spec s
  refine ⟨⟨_, reads_gap rfl⟩, ?_⟩
  rintro piece r ⟨htext, hcomplete⟩
  have hskip := skipOne?_eq_some_iff.mpr (⟨by simpa [Piece.text] using htext, hcomplete.1⟩ :
    (takeGap s).2 = piece.text ++ r ∧ piece.IsComplete r)
  cases hend.symm.trans hskip

/-- A text has one gap at its front that goes as far as it can. -/
theorem BeginsWithGap.takeGap_eq (h : BeginsWithGap s rest) : (takeGap s).2 = rest := by
  obtain ⟨⟨gap, htext, hlegal⟩, hend⟩ := h
  rw [textOf_pieces_gap] at htext
  have hskip : skipOne? rest = none := by
    cases hskip : skipOne? rest with
    | none => rfl
    | some found =>
      obtain ⟨hrest, hcomplete⟩ := skipOne?_eq_some_iff.mp hskip
      exact (hend found.1 found.2 (.single hrest hcomplete)).elim
  rw [htext, takeGap_append_of_skipOne? hlegal hskip]

/-- Behind a taken gap there is none. -/
theorem takeGap_takeGap (s : List Char) : takeGap (takeGap s).2 = ([], (takeGap s).2) := by
  obtain ⟨-, -, hend⟩ := takeGap_spec s
  exact takeGap_of_skipOne? hend

/-- A taken gap decides nothing about the block behind it. -/
theorem beginsWithBlock_takeGap : BeginsWithBlock (takeGap s).2 rest ↔ BeginsWithBlock s rest := by
  rw [beginsWithBlock_iff, beginsWithBlock_iff, takeGap_takeGap]

/-! ### Where reading ends -/

/-- What finds nothing does not find something. -/
theorem not_finds_of_fails {α : Type} {reading : Reading α s} (h : reading.Fails) (a : α)
    (rest : List Char) : ¬ reading.Finds a rest := by
  rintro ⟨hlength, hfound⟩
  cases h.symm.trans hfound

/-- A reading leaves one rest. -/
theorem rest_eq_of_finds {α : Type} {reading : Reading α s} {a b : α} {rest rest' : List Char}
    (h : reading.Finds a rest) (h' : reading.Finds b rest') : rest = rest' := by
  obtain ⟨hlength, hfound⟩ := h
  obtain ⟨hlength', hfound'⟩ := h'
  cases hfound.symm.trans hfound'
  rfl

/-- Blocks are read from a gap on as from the text behind it. -/
theorem BlocksEndAt.of_takeGap (h : BlocksEndAt (takeGap s).2 rest) : BlocksEndAt s rest := by
  cases h with
  | stop hnone hgap =>
    rw [← hgap.takeGap_eq, takeGap_takeGap]
    exact .stop (fun r hblock => hnone r (beginsWithBlock_takeGap.mpr hblock))
      (beginsWithGap_takeGap s)
  | block hblock hrest => exact .block (beginsWithBlock_takeGap.mp hblock) hrest

/-- The repetition of blocks reads them up to where none stands. -/
theorem repeated_readItem_gives (s : List Char) :
    (repeated readItem s).Gives fun _ rest => BlocksEndAt s (takeGap rest).2 := by
  refine repeated_gives (P := fun s _ rest => BlocksEndAt s (takeGap rest).2) ?_ ?_ s
  · intro s hfails
    refine .stop ?_ (beginsWithGap_takeGap s)
    intro r hblock
    obtain ⟨item, hitem⟩ := beginsWithBlock_iff.mp hblock
    exact not_finds_of_fails hfails item r hitem
  · intro s item r more rest hitem hrest
    exact .block (beginsWithBlock_iff.mpr ⟨item, hitem⟩) hrest

/-- A document is read up to where the reading of its text ends. -/
theorem readDocument_endsAt (s : List Char) :
    (readDocument s).Gives fun _ rest => ReadingEndsAt s rest := by
  refine (gap_gives s).finish fun atStart r _ hgap => ?_
  have hr : (takeGap s).2 = r := by rw [hgap]
  refine (Gives.optional ?_ ?_ : (optional (readPackage r)).Gives fun _ r₁ =>
    ∀ rest, BlocksEndAt r₁ rest → ReadingEndsAt s rest).finish fun package r₁ _ hpackage => ?_
  · intro tree r₁ htree rest hblocks
    exact .package (beginsWithPackage_iff.mpr ⟨tree, by rwa [hr]⟩) hblocks
  · intro hfails rest hblocks
    refine .noPackage ?_ (BlocksEndAt.of_takeGap (by rwa [hr]))
    intro r' hpackage
    obtain ⟨tree, htree⟩ := beginsWithPackage_iff.mp hpackage
    rw [hr] at htree
    exact not_finds_of_fails hfails tree r' htree
  refine (repeated_readItem_gives r₁).finish fun items r₂ _ hitems => ?_
  refine (gap_gives r₂).finish fun atEnd r₃ _ hend => ?_
  rw [hend] at hitems
  exact hpackage r₃ hitems

/-- Blocks are read up to one place only. -/
theorem BlocksEndAt.unique {rest' : List Char} (h : BlocksEndAt s rest)
    (h' : BlocksEndAt s rest') : rest = rest' := by
  induction h generalizing rest' with
  | stop hnone hgap =>
    cases h' with
    | stop _ hgap' => rw [← hgap.takeGap_eq, hgap'.takeGap_eq]
    | block hblock _ => exact (hnone _ hblock).elim
  | block hblock _ ih =>
    cases h' with
    | stop hnone _ => exact (hnone _ hblock).elim
    | block hblock' hrest' =>
      obtain ⟨item, hitem⟩ := beginsWithBlock_iff.mp hblock
      obtain ⟨item', hitem'⟩ := beginsWithBlock_iff.mp hblock'
      apply ih
      rwa [rest_eq_of_finds hitem hitem']

/-- The reading of a text ends at one place only. -/
theorem ReadingEndsAt.unique {rest' : List Char} (h : ReadingEndsAt s rest)
    (h' : ReadingEndsAt s rest') : rest = rest' := by
  cases h with
  | package hpackage hblocks =>
    cases h' with
    | package hpackage' hblocks' =>
      obtain ⟨tree, htree⟩ := beginsWithPackage_iff.mp hpackage
      obtain ⟨tree', htree'⟩ := beginsWithPackage_iff.mp hpackage'
      rw [rest_eq_of_finds htree htree'] at hblocks
      exact hblocks.unique hblocks'
    | noPackage hnone _ => exact (hnone _ hpackage).elim
  | noPackage hnone hblocks =>
    cases h' with
    | package hpackage' _ => exact (hnone _ hpackage').elim
    | noPackage _ hblocks' => exact hblocks.unique hblocks'

/-- The reading of a text ends where that of its document does. -/
theorem readingEndsAt_iff : ReadingEndsAt s rest ↔ (readDocument s).rest.1 = rest := by
  constructor
  · intro h
    exact ReadingEndsAt.unique (readDocument_endsAt s) h
  · rintro rfl
    exact readDocument_endsAt s

/-- A text is refused exactly when reading ends before its end. -/
theorem ReadingEndsAt.ne_nil_iff (h : ReadingEndsAt s rest) :
    rest ≠ [] ↔ Document.ofText? s = none := by
  rw [readingEndsAt_iff] at h
  simp [Document.ofText?, h]

end PreferenceInjector.Declaration
