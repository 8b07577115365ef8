import PreferenceInjector.Proofs.Declaration.Settling

/-!
# What the grammar reads back

The text of a legal document is read back as the settled document. Rule by rule, the text of a tree
is read as the settled tree when the pieces are legal and a token that cannot continue the tree
stands behind it. Every gap is followed by a token once the gaps are gathered, so it is taken as it
is; a repetition ends because the token after it starts none of its items.
-/

namespace PreferenceInjector.Declaration

open Reading

/-! ### The first character of a token -/

/-- An identifier starts with no character that is skipped. -/
theorem startsToken_of_isIdentifierStart {c : Char} (h : isIdentifierStart c = true)
    (rest : List Char) : StartsToken (c :: rest) := by
  intro d hd
  cases hd
  refine ⟨?_, ?_, ?_⟩
  · rw [Bool.eq_false_iff]
    intro hblank
    simp only [isBlank, Bool.or_eq_true, beq_iff_eq] at hblank
    rcases hblank with ((rfl | rfl) | rfl) | rfl
    · exact absurd h (by decide)
    · exact absurd h (by decide)
    · exact absurd h (by decide)
    · exact absurd h (by decide)
  · intro heq
    subst heq
    exact absurd h (by decide)
  · intro heq
    subst heq
    exact absurd h (by decide)

/-- A mark that is not skipped starts a token. -/
theorem startsToken_mark {c : Char} (h : isBlank c = false ∧ c ≠ '/' ∧ c ≠ '.')
    (rest : List Char) : StartsToken (c :: rest) := by
  intro d hd
  cases hd
  exact h

/-- An identifier is not empty. -/
theorem IsIdentifier.exists_cons {name : List Char} (h : IsIdentifier name) :
    ∃ c more, name = c :: more ∧ isIdentifierStart c = true := by
  cases name with
  | nil => exact h.elim
  | cons c more => exact ⟨c, more, rfl, h.1⟩

/-- An identifier starts a token. -/
theorem IsIdentifier.startsToken {name : List Char} (h : IsIdentifier name) (rest : List Char) :
    StartsToken (name ++ rest) := by
  obtain ⟨c, more, rfl, hc⟩ := h.exists_cons
  exact startsToken_of_isIdentifierStart hc (more ++ rest)

/-- A dotted name starts a token. -/
theorem Dotted.IsLegal.startsToken {name : Dotted} (h : name.IsLegal) (rest : List Char) :
    StartsToken (name.text ++ rest) := by
  rw [Dotted.text, List.append_assoc]
  exact h.1.startsToken _

/-- A text that does not start with a dot. -/
def NoDot (rest : List Char) : Prop := ∀ c ∈ rest.head?, c ≠ '.'

/-- A token does not start with a dot. -/
theorem StartsToken.noDot {rest : List Char} (h : StartsToken rest) : NoDot rest :=
  fun c hc => (h c hc).2.2

/-- No gap starts with a dot. -/
theorem noDot_gap {gap : Gap} {rest : List Char} (hgap : Legal (Gap.pieces gap) rest)
    (hrest : NoDot rest) : NoDot (Gap.text gap ++ rest) := by
  cases gap with
  | nil => exact hrest
  | cons piece gap =>
    obtain ⟨hpiece, -⟩ := legal_pieces_cons.mp hgap
    cases piece with
    | blank c =>
      intro d hd heq
      cases hd
      subst heq
      exact absurd (show isBlank '.' = true from hpiece) (by decide)
    | lineComment body =>
      intro d hd
      cases hd
      decide
    | blockComment body =>
      intro d hd
      cases hd
      decide

/-! ### Words and gaps -/

section Words

variable {gap : Gap} {rest : List Char}

/-- The gap at the front of a text is the one that is taken. -/
theorem gap_ends_iff {s : List Char} :
    (Ending.gap s).Ends gap rest ↔ takeGap s = (gap, rest) := by
  constructor
  · intro h
    obtain ⟨hgap, hrest⟩ := h
    exact Prod.ext hgap hrest
  · intro h
    exact ⟨congrArg Prod.fst h, congrArg Prod.snd h⟩

/-- A legal gap in front of a token. -/
theorem gap_ends (hgap : Legal (Gap.pieces gap) rest) (hrest : StartsToken rest) :
    (Ending.gap (Gap.text gap ++ rest)).Ends gap rest :=
  gap_ends_iff.mpr (takeGap_append hgap hrest)

/-- No gap in front of a token. -/
theorem gap_ends_nil (hrest : StartsToken rest) : (Ending.gap rest).Ends [] rest :=
  gap_ends_iff.mpr (takeGap_of_skipOne? hrest.skipOne?)

/-- A mark behind a gap. -/
theorem readMark_finds {c : Char} (hgap : Legal (Gap.pieces gap) (c :: rest))
    (hc : isBlank c = false ∧ c ≠ '/' ∧ c ≠ '.') :
    (readMark c (Gap.text gap ++ c :: rest)).Finds gap rest :=
  (gap_ends hgap (startsToken_mark hc rest)).andThen fun _ => (mark_finds c rest).map _

/-- An identifier. -/
theorem readIdentifier_finds {name : List Char} (hname : IsIdentifier name)
    (hrest : EndsName rest) : (readIdentifier (name ++ rest)).Finds name rest :=
  atom_finds (takeIdentifier?_eq_some_iff.mpr ⟨rfl, hname, hrest⟩)

/-- A dotted name. -/
theorem readName_finds {name : Dotted} (hname : name.IsLegal) (hrest : EndsName rest)
    (hdot : NoDot rest) : (readName (name.text ++ rest)).Finds name rest :=
  atom_finds (takeName?_append hname hrest hdot)

/-- No word is found where it cannot be dropped. -/
theorem word_fails {word : String} {s : List Char} {nonempty : 0 < word.toList.length}
    (h : dropWord? word.toList s = none) : (Reading.word word s nonempty).Fails := by
  unfold Fails Reading.word
  split
  · next hdrop => cases h.symm.trans hdrop
  · rfl

/-- A dotted name starts with the first character of an identifier. -/
theorem readName_fails {s : List Char} (h : ∀ c ∈ s.head?, isIdentifierStart c = false) :
    (readName s).Fails := by
  apply atom_fails
  cases s with
  | nil => rfl
  | cons c s => simp [takeName?, takeIdentifier?, h c rfl]

end Words

/-- A repetition reads its items one by one, each as `f` says, and ends in front of a token that
starts no item. -/
theorem repeated_ends {α : Type} (read : (s : List Char) → Reading α s) {pieces : α → List Piece}
    {next : Gap} {rest : List Char} (f : Gap × α → Gap × α) (hrest : StartsToken rest)
    (hfails : (read rest).Fails) (items : List (Gap × α))
    (hread : ∀ item ∈ items, ∀ r, Legal (Gap.pieces item.1 ++ pieces item.2) r →
      ∃ r', takeGap (Gap.text item.1 ++ (textOf (pieces item.2) ++ r)) = ((f item).1, r') ∧
        (read r').Finds (f item).2 r)
    (hlegal : Legal (spread pieces items ++ Gap.pieces next) rest) :
    (repeated read (textOf (spread pieces items) ++ (Gap.text next ++ rest))).Ends
      (items.map f) (Gap.text next ++ rest) := by
  induction items with
  | nil =>
    have hnext : Legal (Gap.pieces next) rest := by simpa using hlegal
    exact hfails.repeated (takeGap_append hnext hrest)
  | cons item items ih =>
    obtain ⟨hitem, hread⟩ := List.forall_mem_cons.mp hread
    have hlegal : Legal ((Gap.pieces item.1 ++ pieces item.2) ++
        (spread pieces items ++ Gap.pieces next)) rest := by
      simpa using hlegal
    rw [legal_append] at hlegal
    obtain ⟨r', hgap, hfinds⟩ := hitem _ hlegal.1
    have hmore := ih hread hlegal.2
    rw [textOf_append, textOf_pieces_gap, List.append_assoc] at hgap hfinds
    have htext : textOf (spread pieces (item :: items)) ++ (Gap.text next ++ rest) =
        Gap.text item.1 ++ (textOf (pieces item.2) ++
          (textOf (spread pieces items) ++ (Gap.text next ++ rest))) := by
      simp
    rw [htext, List.map_cons]
    exact hfinds.repeated hgap hmore

/-! ### Types -/

section Types

variable {α : Type} {pieces : α → List Piece} {gap next : Gap} {items : List (Gap × α)}
  {rest : List Char}

/-- A gathered gap is what is skipped in front of the items. -/
theorem takeGap_gather
    (hlegal : Legal (Gap.pieces gap ++ (spread pieces items ++ Gap.pieces next)) rest)
    (hitem : ∀ item ∈ items, ∀ r, StartsToken (textOf (pieces item.2) ++ r))
    (hrest : StartsToken rest) :
    takeGap (Gap.text gap ++ (textOf (spread pieces items) ++ (Gap.text next ++ rest))) =
      ((gather gap items next).gap, textOf (spread pieces (gather gap items next).items) ++
        (Gap.text (gather gap items next).next ++ rest)) := by
  rw [← gather_text]
  exact takeGap_append (gather_legal hlegal).1 (gather_rest StartsToken gap next hitem hrest)

/-- An opening bracket starts a token. -/
theorem startsToken_brackets (dimensions : Dimensions) :
    ∀ item ∈ dimensions, ∀ r, StartsToken (textOf (bracketPieces item.2) ++ r) :=
  fun _ _ _ => startsToken_mark (c := '[') (by decide) _

/-- The brackets of an array dimension. -/
theorem readDimension_finds {inside : Gap} (hlegal : Legal (bracketPieces inside) rest) :
    (readDimension (textOf (bracketPieces inside) ++ rest)).Finds inside rest := by
  have hinside : Legal (Gap.pieces inside) (']' :: rest) := by
    simpa [Piece.text] using (legal_append.mp hlegal.2).1
  have htext : textOf (bracketPieces inside) ++ rest = '[' :: (Gap.text inside ++ ']' :: rest) := by
    simp [bracketPieces, Piece.text]
  rw [htext]
  apply Finds.within
  exact (mark_finds '[' _).andThen fun _ => readMark_finds hinside (by decide)

/-- Array dimensions in front of a token that opens no bracket. -/
theorem dimensions_end {dimensions : Dimensions} (hrest : StartsToken rest)
    (hbracket : ∀ c ∈ rest.head?, '[' ≠ c)
    (hlegal : Legal (Dimensions.pieces dimensions ++ Gap.pieces next) rest) :
    (repeated readDimension (textOf (Dimensions.pieces dimensions) ++
      (Gap.text next ++ rest))).Ends dimensions (Gap.text next ++ rest) := by
  have hfails : (readDimension rest).Fails := ((mark_fails hbracket).andThen _).within _
  have hends := repeated_ends readDimension id hrest hfails dimensions ?_ hlegal
  · rw [List.map_id] at hends
    exact hends
  · intro item hmem r hitem
    rw [legal_append] at hitem
    refine ⟨_, takeGap_append hitem.1 (startsToken_brackets dimensions item hmem r), ?_⟩
    exact readDimension_finds hitem.2

/-- A type starts a token. -/
theorem TypeTree.startsToken {type : TypeTree} {rest : List Char} (hlegal : Legal type.pieces rest)
    (r : List Char) : StartsToken (textOf type.pieces ++ r) := by
  obtain ⟨more, hpieces⟩ := type.pieces_eq_cons
  rw [hpieces] at hlegal ⊢
  rw [textOf_cons, List.append_assoc]
  exact hlegal.1.1.startsToken _

/-- Where a gap and brackets, or the token behind them, follow a name, the name ends. -/
theorem noDot_gap_items {rest : List Char}
    (hlegal : Legal (Gap.pieces gap ++ (spread pieces items ++ Gap.pieces next)) rest)
    (hitem : ∀ item ∈ items, ∀ r, StartsToken (textOf (pieces item.2) ++ r))
    (hrest : StartsToken rest) :
    NoDot (Gap.text gap ++ (textOf (spread pieces items) ++ (Gap.text next ++ rest))) := by
  rw [← gather_text]
  refine noDot_gap (gather_legal hlegal).1 (StartsToken.noDot ?_)
  exact gather_rest StartsToken gap next hitem hrest

/-- A gathered gap in front of array dimensions, and the dimensions. -/
theorem gap_ends_gather
    (hlegal : Legal (Gap.pieces gap ++ (spread pieces items ++ Gap.pieces next)) rest)
    (hitem : ∀ item ∈ items, ∀ r, StartsToken (textOf (pieces item.2) ++ r))
    (hrest : StartsToken rest) :
    (Ending.gap (Gap.text gap ++ (textOf (spread pieces items) ++ (Gap.text next ++ rest)))).Ends
      (gather gap items next).gap (textOf (spread pieces (gather gap items next).items) ++
        (Gap.text (gather gap items next).next ++ rest)) :=
  gap_ends_iff.mpr (takeGap_gather hlegal hitem hrest)

/-- Type arguments behind the opening bracket. -/
theorem readTypeArguments_finds {s : List Char} {types : TypeListTree}
    (h : (readTypeList s).Finds types rest) : (readTypeArguments ('<' :: s)).Finds types rest := by
  rw [readTypeArguments]
  apply Finds.within
  exact (mark_finds '<' s).andThen fun _ => h

/-- No type arguments in front of another character than the opening bracket. -/
theorem readTypeArguments_fails {s : List Char} (h : ∀ c ∈ s.head?, '<' ≠ c) :
    (readTypeArguments s).Fails := by
  rw [readTypeArguments]
  exact ((mark_fails h).andThen _).within _

/-- What a type leaves of the gap behind it is legal. -/
theorem TypeTree.settle_legal {type : TypeTree}
    (hlegal : Legal (type.pieces ++ Gap.pieces next) rest) :
    Legal (Gap.pieces (type.settle next).2) rest := by
  cases type with
  | plain name gap dimensions =>
    have hgaps : Legal (Gap.pieces gap ++ (Dimensions.pieces dimensions ++ Gap.pieces next))
        rest := by
      rw [TypeTree.pieces, List.append_assoc, List.cons_append, ← List.append_assoc] at hlegal
      simpa using hlegal.2
    exact (legal_append.mp (gather_legal hgaps).2).2
  | applied name gap arguments after dimensions =>
    have hgaps : Legal (Gap.pieces after ++ (Dimensions.pieces dimensions ++ Gap.pieces next))
        rest := by
      simp only [TypeTree.pieces, List.append_assoc, List.cons_append, legal_append, legal_cons]
        at hlegal ⊢
      exact hlegal.2.2.2.2
    exact (legal_append.mp (gather_legal hgaps).2).2

/-- A type without arguments, in front of a token that opens neither type arguments nor a
bracket. -/
theorem readType_finds_plain {name : Dotted} {dimensions : Dimensions}
    (hlegal : Legal ((TypeTree.plain name gap dimensions).pieces ++ Gap.pieces next) rest)
    (hrest : StartsToken rest) (hangle : ∀ c ∈ rest.head?, '<' ≠ c)
    (hbracket : ∀ c ∈ rest.head?, '[' ≠ c) :
    (readType (textOf (TypeTree.plain name gap dimensions).pieces ++
      (Gap.text next ++ rest))).Finds ((TypeTree.plain name gap dimensions).settle next).1
      (Gap.text ((TypeTree.plain name gap dimensions).settle next).2 ++ rest) := by
  have hparts : (name.IsLegal ∧ EndsName (Gap.text gap ++
        (textOf (spread bracketPieces dimensions) ++ (Gap.text next ++ rest)))) ∧
      Legal (Gap.pieces gap ++ (spread bracketPieces dimensions ++ Gap.pieces next)) rest := by
    simpa [TypeTree.pieces, Dimensions.pieces, Piece.IsLegal] using hlegal
  obtain ⟨⟨hname, hends⟩, hgaps⟩ := hparts
  have htext : textOf (TypeTree.plain name gap dimensions).pieces ++ (Gap.text next ++ rest) =
      name.text ++ (Gap.text gap ++ (textOf (spread bracketPieces dimensions) ++
        (Gap.text next ++ rest))) := by
    simp [TypeTree.pieces, Dimensions.pieces, Piece.text]
  have hitem : ∀ item ∈ dimensions, ∀ r, ∀ c ∈ (textOf (bracketPieces item.2) ++ r).head?,
      '<' ≠ c := by
    intro _ _ _ c hc
    cases hc
    decide
  have hstart := gather_rest StartsToken gap next (startsToken_brackets dimensions) hrest
  have hargs := gather_rest (fun r => ∀ c ∈ r.head?, '<' ≠ c) gap next hitem hangle
  rw [htext, readType]
  apply Finds.within
  apply (readName_finds hname hends
    (noDot_gap_items hgaps (startsToken_brackets dimensions) hrest)).finish
  intro _
  apply (gap_ends_gather hgaps (startsToken_brackets dimensions) hrest).finish
  intro _
  apply (readTypeArguments_fails hargs).optional.finish
  intro _
  apply (gap_ends_nil hstart).finish
  intro _
  apply (dimensions_end hrest hbracket (gather_legal hgaps).2).finish
  intro _
  simp [Ending.Ends, Ending.done, TypeTree.settle]

mutual

/-- A type in front of a token that neither opens type arguments nor a bracket. -/
theorem readType_finds (type : TypeTree) (next : Gap) (rest : List Char)
    (hlegal : Legal (type.pieces ++ Gap.pieces next) rest) (hrest : StartsToken rest)
    (hstop : ∀ c ∈ rest.head?, '<' ≠ c ∧ '[' ≠ c) :
    (readType (textOf type.pieces ++ (Gap.text next ++ rest))).Finds (type.settle next).1
      (Gap.text (type.settle next).2 ++ rest) := by
  have hangle : ∀ c ∈ rest.head?, '<' ≠ c := fun c hc => (hstop c hc).1
  have hbracket : ∀ c ∈ rest.head?, '[' ≠ c := fun c hc => (hstop c hc).2
  cases type with
  | plain name gap dimensions => exact readType_finds_plain hlegal hrest hangle hbracket
  | applied name gap arguments after dimensions =>
    have hparts : (name.IsLegal ∧ EndsName (Gap.text gap ++ '<' :: (textOf arguments.pieces ++
          (Gap.text after ++ (textOf (spread bracketPieces dimensions) ++
            (Gap.text next ++ rest)))))) ∧
        Legal (Gap.pieces gap) ('<' :: (textOf arguments.pieces ++
          (Gap.text after ++ (textOf (spread bracketPieces dimensions) ++
            (Gap.text next ++ rest))))) ∧
        Legal arguments.pieces (Gap.text after ++
          (textOf (spread bracketPieces dimensions) ++ (Gap.text next ++ rest))) ∧
        Legal (Gap.pieces after ++ (spread bracketPieces dimensions ++ Gap.pieces next)) rest := by
      simpa [TypeTree.pieces, Dimensions.pieces, Piece.IsLegal, Piece.text] using hlegal
    obtain ⟨⟨hname, hends⟩, hgap, harguments, hgaps⟩ := hparts
    have htext : textOf (TypeTree.applied name gap arguments after dimensions).pieces ++
          (Gap.text next ++ rest) =
        name.text ++ (Gap.text gap ++ '<' :: (textOf arguments.pieces ++ (Gap.text after ++
          (textOf (spread bracketPieces dimensions) ++ (Gap.text next ++ rest))))) := by
      simp [TypeTree.pieces, Dimensions.pieces, Piece.text]
    rw [htext, readType]
    apply Finds.within
    apply (readName_finds hname hends (noDot_gap hgap
      (startsToken_mark (by decide) _).noDot)).finish
    intro _
    apply (gap_ends hgap (startsToken_mark (by decide) _)).finish
    intro _
    have hfinds := readTypeArguments_finds (readTypeList_finds arguments _ harguments)
    apply hfinds.optional.finish
    intro _
    apply (gap_ends_gather hgaps (startsToken_brackets dimensions) hrest).finish
    intro _
    apply (dimensions_end hrest hbracket (gather_legal hgaps).2).finish
    intro _
    simp [Ending.Ends, Ending.done, TypeTree.settle]

/-- Type arguments behind their opening bracket. -/
theorem readTypeList_finds (types : TypeListTree) (rest : List Char)
    (hlegal : Legal types.pieces rest) :
    (readTypeList (textOf types.pieces ++ rest)).Finds types.settle rest := by
  cases types with
  | last before type after =>
    have hparts : Legal (Gap.pieces before)
          (textOf type.pieces ++ (Gap.text after ++ '>' :: rest)) ∧
        Legal (type.pieces ++ Gap.pieces after) ('>' :: rest) := by
      simpa [TypeListTree.pieces, Piece.text, Piece.IsLegal] using hlegal
    obtain ⟨hbefore, htype⟩ := hparts
    have htext : textOf (TypeListTree.last before type after).pieces ++ rest =
        Gap.text before ++ (textOf type.pieces ++ (Gap.text after ++ '>' :: rest)) := by
      simp [TypeListTree.pieces, Piece.text]
    have hmark : StartsToken ('>' :: rest) := startsToken_mark (by decide) rest
    rw [htext, readTypeList]
    apply (gap_ends hbefore
      (TypeTree.startsToken (legal_append.mp htype).1 _)).andThen
    intro _
    apply (readType_finds type after ('>' :: rest) htype hmark
      (by simp)).andThen
    intro _
    apply (gap_ends (TypeTree.settle_legal htype) hmark).andThen
    intro _
    refine Fails.orElse_finds ?_ ((mark_finds '>' rest).map _)
    exact (mark_fails (by simp)).andThen _
  | cons before type after more =>
    have hparts : Legal (Gap.pieces before)
          (textOf type.pieces ++ (Gap.text after ++ ',' :: (textOf more.pieces ++ rest))) ∧
        Legal (type.pieces ++ Gap.pieces after) (',' :: (textOf more.pieces ++ rest)) ∧
        Legal more.pieces rest := by
      simpa [TypeListTree.pieces, Piece.text, Piece.IsLegal, and_assoc] using hlegal
    obtain ⟨hbefore, htype, hmore⟩ := hparts
    have htext : textOf (TypeListTree.cons before type after more).pieces ++ rest =
        Gap.text before ++ (textOf type.pieces ++
          (Gap.text after ++ ',' :: (textOf more.pieces ++ rest))) := by
      simp [TypeListTree.pieces, Piece.text]
    have hmark : StartsToken (',' :: (textOf more.pieces ++ rest)) :=
      startsToken_mark (by decide) _
    rw [htext, readTypeList]
    apply (gap_ends hbefore
      (TypeTree.startsToken (legal_append.mp htype).1 _)).andThen
    intro _
    apply (readType_finds type after _ htype hmark
      (by simp)).andThen
    intro _
    apply (gap_ends (TypeTree.settle_legal htype) hmark).andThen
    intro _
    refine Finds.orElse ?_ _
    apply (mark_finds ',' _).andThen
    intro _
    exact (readTypeList_finds more rest hmore).map _

end

end Types

end PreferenceInjector.Declaration
