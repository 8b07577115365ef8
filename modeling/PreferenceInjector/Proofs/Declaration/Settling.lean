import PreferenceInjector.Proofs.Declaration.Soundness

/-!
# Settled documents

The grammar looks for a gap at more places than a document needs: behind the name of a type there
may be one before the type arguments, one before the first bracket and one before the field name,
with no token between them. Reading such a text puts everything into the first of these gaps.
`Document.settle` does the same to a document. It changes neither the pieces nor anything that a
document declares, only the gap that a skipped piece belongs to.
-/

namespace PreferenceInjector.Declaration

/-- Items between two gaps. -/
structure Gathered (α : Type) where
  /-- The gap before the items. -/
  gap : Gap
  /-- The items with the gaps before them. -/
  items : List (Gap × α)
  /-- The gap after the items. -/
  next : Gap

/-- Whatever is skipped before the first item, or after a gap without items, belongs to the gap. -/
def gather {α : Type} (gap : Gap) (items : List (Gap × α)) (next : Gap) : Gathered α :=
  match items with
  | [] => ⟨gap ++ next, [], []⟩
  | (before, item) :: more => ⟨gap ++ before, ([], item) :: more, next⟩

mutual

/-- A type in front of a gap, with what the type takes of the gap, and what remains. -/
def TypeTree.settle : TypeTree → Gap → TypeTree × Gap
  | .plain name gap dimensions, next =>
    let gathered := gather gap dimensions next
    (.plain name gathered.gap gathered.items, gathered.next)
  | .applied name gap arguments after dimensions, next =>
    let gathered := gather after dimensions next
    (.applied name gap arguments.settle gathered.gap gathered.items, gathered.next)

/-- Type arguments whose types take the gaps behind them. -/
def TypeListTree.settle : TypeListTree → TypeListTree
  | .last before type after => .last before (type.settle after).1 (type.settle after).2
  | .cons before type after rest =>
    .cons before (type.settle after).1 (type.settle after).2 rest.settle

end

/-- A gathered list is as long as the list was. -/
@[simp] theorem gather_length {α : Type} (gap : Gap) (items : List (Gap × α)) (next : Gap) :
    (gather gap items next).items.length = items.length := by
  cases items with
  | nil => rfl
  | cons item more => rfl

/-- Decorations in front of a gap: an annotation without arguments takes the gap behind it. -/
def settleDecorations (decorations : List (Gap × Decoration)) (next : Gap) :
    List (Gap × Decoration) × Gap :=
  match decorations with
  | [] => ([], next)
  | (gap, .annotated inside name after none) :: more =>
    let gathered := gather after more next
    let settled := settleDecorations gathered.items gathered.next
    ((gap, .annotated inside name gathered.gap none) :: settled.1, settled.2)
  | (gap, decoration) :: more =>
    let settled := settleDecorations more next
    ((gap, decoration) :: settled.1, settled.2)
termination_by decorations.length
decreasing_by
  · simp
  · simp

/-- A field behind a gap, which takes what is skipped before the first token of the field. -/
def FieldTree.settle (gap : Gap) (field : FieldTree) : Gap × FieldTree :=
  let gathered := gather gap field.decorations field.beforeType
  let decorated := settleDecorations gathered.items gathered.next
  let typed := field.type.settle field.beforeName
  (gathered.gap, { field with
    decorations := decorated.1, beforeType := decorated.2, type := typed.1, beforeName := typed.2 })

/-- A class with settled fields. -/
def ClassTree.settle (tree : ClassTree) : ClassTree :=
  { tree with fields := tree.fields.map fun (gap, field) => field.settle gap }

/-- A block with settled fields. -/
def ItemTree.settle : ItemTree → ItemTree
  | component tree => .component tree
  | consumer tree => .consumer tree.settle

/-- A document as it is read back: every skipped piece belongs to the first gap that can hold it. -/
def Document.settle (document : Document) : Document :=
  match document.package with
  | some package =>
    { document with
      package := some package
      items := document.items.map fun (gap, item) => (gap, item.settle) }
  | none =>
    let gathered := gather document.atStart document.items document.atEnd
    { atStart := gathered.gap, package := none
      items := gathered.items.map fun (gap, item) => (gap, item.settle), atEnd := gathered.next }

variable {α : Type} {pieces : α → List Piece} {gap next : Gap} {items : List (Gap × α)}
  {rest : List Char}

/-- Gathering moves no piece past another one. -/
theorem gather_pieces (pieces : α → List Piece) (gap : Gap) (items : List (Gap × α)) (next : Gap) :
    Gap.pieces (gather gap items next).gap ++
      (spread pieces (gather gap items next).items ++ Gap.pieces (gather gap items next).next) =
    Gap.pieces gap ++ (spread pieces items ++ Gap.pieces next) := by
  cases items with
  | nil => simp [gather]
  | cons item more => simp [gather]

/-- Gathering does not change the text. -/
theorem gather_text : Gap.text (gather gap items next).gap ++
      (textOf (spread pieces (gather gap items next).items) ++
        (Gap.text (gather gap items next).next ++ rest)) =
    Gap.text gap ++ (textOf (spread pieces items) ++ (Gap.text next ++ rest)) := by
  have h := congrArg (textOf · ++ rest) (gather_pieces pieces gap items next)
  simpa using h

/-- Gathered pieces are legal when the pieces are. -/
theorem gather_legal (h : Legal (Gap.pieces gap ++ (spread pieces items ++ Gap.pieces next)) rest) :
    Legal (Gap.pieces (gather gap items next).gap)
        (textOf (spread pieces (gather gap items next).items) ++
          (Gap.text (gather gap items next).next ++ rest)) ∧
      Legal (spread pieces (gather gap items next).items ++
        Gap.pieces (gather gap items next).next) rest := by
  rw [← gather_pieces, legal_append] at h
  simpa using h

/-- What follows a gathered gap is the first item, or the rest if there is none. -/
theorem gather_rest (P : List Char → Prop) (gap next : Gap)
    (hitem : ∀ item ∈ items, ∀ r, P (textOf (pieces item.2) ++ r)) (hrest : P rest) :
    P (textOf (spread pieces (gather gap items next).items) ++
      (Gap.text (gather gap items next).next ++ rest)) := by
  cases items with
  | nil => simpa [gather] using hrest
  | cons item more =>
    have h := hitem item List.mem_cons_self (textOf (spread pieces more) ++ (Gap.text next ++ rest))
    simpa [gather] using h

/-- Gathering takes all of the gap behind the items or nothing of it. -/
theorem gather_next {α : Type} (gap : Gap) (items : List (Gap × α)) (next : Gap) :
    (gather gap items next).next = next ∨ (gather gap items next).next = [] := by
  cases items with
  | nil => exact Or.inr rfl
  | cons item items => exact Or.inl rfl

/-- Gathering changes no item. -/
theorem gather_map {α β : Type} (f : α → β) (gap : Gap) (items : List (Gap × α)) (next : Gap) :
    (gather gap items next).items.map (fun item => f item.2) =
      items.map fun item => f item.2 := by
  cases items with
  | nil => rfl
  | cons item items => rfl

mutual

/-- Settling moves no piece of a type past another one. -/
theorem TypeTree.settle_pieces : (type : TypeTree) → (next : Gap) →
    (type.settle next).1.pieces ++ Gap.pieces (type.settle next).2 =
      type.pieces ++ Gap.pieces next
  | .plain name gap dimensions, next => by
    have h := gather_pieces bracketPieces gap dimensions next
    simpa [TypeTree.settle, TypeTree.pieces, Dimensions.pieces] using h
  | .applied name gap arguments after dimensions, next => by
    have h := gather_pieces bracketPieces after dimensions next
    simpa [TypeTree.settle, TypeTree.pieces, Dimensions.pieces, arguments.settle_pieces] using h

/-- Settling moves no piece of type arguments past another one. -/
theorem TypeListTree.settle_pieces : (types : TypeListTree) → types.settle.pieces = types.pieces
  | .last before type after => by
    have h := type.settle_pieces after
    simp only [TypeListTree.settle, TypeListTree.pieces, List.append_assoc]
    rw [← List.append_assoc (type.settle after).1.pieces, h, List.append_assoc]
  | .cons before type after rest => by
    have h := type.settle_pieces after
    simp only [TypeListTree.settle, TypeListTree.pieces, List.append_assoc, rest.settle_pieces]
    rw [← List.append_assoc (type.settle after).1.pieces, h, List.append_assoc]

end

/-- A settled type has taken all of the gap behind it or nothing of it. -/
theorem TypeTree.settle_text (type : TypeTree) (next : Gap) :
    (type.settle next).1.text = type.text ∨
      (type.settle next).1.text = type.text ++ Gap.text next := by
  have h := congrArg textOf (type.settle_pieces next)
  simp only [textOf_append, textOf_pieces_gap, TypeTree.textOf_pieces] at h
  have hnext : (type.settle next).2 = next ∨ (type.settle next).2 = [] := by
    cases type with
    | plain name gap dimensions => exact gather_next gap dimensions next
    | applied name gap arguments after dimensions => exact gather_next after dimensions next
  rcases hnext with hnext | hnext
  · rw [hnext] at h
    exact Or.inl (List.append_cancel_right h)
  · rw [hnext, Gap.text_nil, List.append_nil] at h
    exact Or.inr h

end PreferenceInjector.Declaration
