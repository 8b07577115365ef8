import PreferenceInjector.Proofs.Declaration.Completeness.Type

/-!
# How fields and classes are read back

The decorations of a field are read until neither an annotation nor a modifier stands next, which
is the case in front of a type that starts with no modifier word. An annotation without arguments
looks for them behind the next gap and keeps the gap, so decorations are settled from the first to
the last.
-/

namespace PreferenceInjector.Declaration

open Reading

variable {gap next : Gap} {rest : List Char}

/-! ### Decorations -/

/-- Each of several spread items is legal in front of some text. -/
theorem Legal.exists_of_mem {α : Type} {pieces : α → List Piece} {items : List (Gap × α)}
    (h : Legal (spread pieces items) rest) :
    ∀ item ∈ items, ∃ r, Legal (pieces item.2) r := by
  induction items with
  | nil => simp
  | cons item items ih =>
    rw [spread_cons, legal_append, legal_append] at h
    obtain ⟨-, hitem, hitems⟩ := h
    exact List.forall_mem_cons.mpr ⟨⟨_, hitem⟩, ih hitems⟩

/-- An annotation and a modifier start with a mark or an identifier. -/
theorem Decoration.exists_head {decoration : Decoration} {r : List Char}
    (h : Legal decoration.pieces r) :
    ∃ c more, textOf decoration.pieces = c :: more ∧ (c = '@' ∨ isIdentifierStart c = true) := by
  cases decoration with
  | annotated inside name after arguments => exact ⟨'@', _, rfl, Or.inl rfl⟩
  | modifier word =>
    obtain ⟨⟨hword, -⟩, -⟩ := h
    obtain ⟨c, more, rfl, hc⟩ := (isIdentifier_of_mem_modifierWords hword).exists_cons
    exact ⟨c, more, by simp [Decoration.pieces, Piece.text], Or.inr hc⟩

/-- A decoration starts a token. -/
theorem Decoration.startsToken {decoration : Decoration} {r : List Char}
    (h : Legal decoration.pieces r) (rest : List Char) :
    StartsToken (textOf decoration.pieces ++ rest) := by
  obtain ⟨c, more, htext, hc⟩ := Decoration.exists_head h
  rw [htext]
  rcases hc with rfl | hc
  · exact startsToken_mark (by decide) _
  · exact startsToken_of_isIdentifierStart hc _

/-- Each of several decorations starts a token. -/
theorem startsToken_decorations {decorations : List (Gap × Decoration)}
    (h : Legal (spread Decoration.pieces decorations) rest) :
    ∀ item ∈ decorations, ∀ r, StartsToken (textOf item.2.pieces ++ r) := by
  intro item hmem r
  obtain ⟨_, hitem⟩ := h.exists_of_mem item hmem
  exact Decoration.startsToken hitem r

/-- A decoration does not start with an opening parenthesis. -/
theorem Decoration.head_ne_parenthesis {decorations : List (Gap × Decoration)}
    (h : Legal (spread Decoration.pieces decorations) rest) :
    ∀ item ∈ decorations, ∀ r, ∀ c ∈ (textOf item.2.pieces ++ r).head?, c ≠ '(' := by
  intro item hmem r
  obtain ⟨r', hitem⟩ := h.exists_of_mem item hmem
  obtain ⟨c, more, htext, hc⟩ := Decoration.exists_head hitem
  rw [htext]
  intro d hd heq
  cases hd
  subst heq
  rcases hc with hc | hc
  · exact absurd hc (by decide)
  · exact absurd hc (by decide)

/-- The arguments of an annotation. -/
theorem readArguments_finds {text : List Char} (h : IsArguments text) (rest : List Char) :
    (readArguments (text ++ rest)).Finds text rest := by
  obtain ⟨hlen, htake⟩ := takeArguments?_append h rest
  refine ⟨hlen, ?_⟩
  rw [readArguments, htake]

/-- No arguments in front of another character than the opening parenthesis. -/
theorem readArguments_fails {s : List Char} (h : ∀ c ∈ s.head?, c ≠ '(') :
    (readArguments s).Fails := by
  have hnone : takeArguments? s = none := by
    cases s with
    | nil => rw [takeArguments?]
    | cons c s =>
      rw [takeArguments?]
      simp [h c rfl]
  rw [Fails, readArguments, hnone]

/-- An annotation starts with its mark. -/
theorem readAnnotated_fails {s : List Char} (h : ∀ c ∈ s.head?, '@' ≠ c) :
    (readAnnotated s).Fails :=
  ((mark_fails h).andThen _).within _

/-- An annotation with arguments. -/
theorem readAnnotated_finds {inside after : Gap} {name : Dotted} {text : List Char}
    (hlegal : Legal (Decoration.annotated inside name after (some text)).pieces rest) :
    (readAnnotated (textOf (Decoration.annotated inside name after (some text)).pieces ++
      rest)).Finds (.annotated inside name after (some text)) rest := by
  have hparts : Legal (Gap.pieces inside) (name.text ++ (Gap.text after ++ (text ++ rest))) ∧
      (name.IsLegal ∧ EndsName (Gap.text after ++ (text ++ rest))) ∧
      Legal (Gap.pieces after) (text ++ rest) ∧ IsArguments text := by
    simpa [Decoration.pieces, Piece.text, Piece.IsLegal] using hlegal
  obtain ⟨hinside, ⟨hname, hends⟩, hafter, harguments⟩ := hparts
  have htext : textOf (Decoration.annotated inside name after (some text)).pieces ++ rest =
      '@' :: (Gap.text inside ++ (name.text ++ (Gap.text after ++ (text ++ rest)))) := by
    simp [Decoration.pieces, Piece.text]
  have hopen : StartsToken (text ++ rest) := by
    obtain ⟨inner, -, rfl⟩ := harguments
    exact startsToken_mark (by decide) _
  rw [htext]
  apply Finds.within
  apply (mark_finds '@' _).andThen
  intro _
  apply (gap_ends hinside (hname.startsToken _)).andThen
  intro _
  apply (readName_finds hname hends (noDot_gap hafter hopen.noDot)).finish
  intro _
  apply (gap_ends hafter hopen).finish
  intro _
  apply (readArguments_finds harguments rest).optional.finish
  intro _
  exact Ending.ends_done _ rest

/-- An annotation without arguments takes the gap behind it. -/
theorem readAnnotated_finds_gather {inside after : Gap} {name : Dotted}
    {more : List (Gap × Decoration)}
    (hinside : Legal (Gap.pieces inside) (name.text ++ (Gap.text after ++
      (textOf (spread Decoration.pieces more) ++ (Gap.text next ++ rest)))))
    (hname : name.IsLegal)
    (hends : EndsName (Gap.text after ++
      (textOf (spread Decoration.pieces more) ++ (Gap.text next ++ rest))))
    (hmore : Legal (Gap.pieces after ++ (spread Decoration.pieces more ++ Gap.pieces next)) rest)
    (hrest : StartsToken rest) (hopen : ∀ c ∈ rest.head?, c ≠ '(') :
    (readAnnotated ('@' :: (Gap.text inside ++ (name.text ++ (Gap.text after ++
      (textOf (spread Decoration.pieces more) ++ (Gap.text next ++ rest))))))).Finds
      (.annotated inside name (gather after more next).gap none)
      (textOf (spread Decoration.pieces (gather after more next).items) ++
        (Gap.text (gather after more next).next ++ rest)) := by
  have hlegal := (legal_append.mp (legal_append.mp hmore).2).1
  have hstart := startsToken_decorations hlegal
  apply Finds.within
  apply (mark_finds '@' _).andThen
  intro _
  apply (gap_ends hinside (hname.startsToken _)).andThen
  intro _
  apply (readName_finds hname hends (noDot_gap_items hmore hstart hrest)).finish
  intro _
  apply (gap_ends_gather hmore hstart hrest).finish
  intro _
  have hfails := readArguments_fails (gather_rest (fun s => ∀ c ∈ s.head?, c ≠ '(') after next
    (Decoration.head_ne_parenthesis hlegal) hopen)
  apply hfails.optional.finish
  intro _
  exact Ending.ends_done _ _

/-- A modifier. -/
theorem readModifier_finds {word : List Char} (hword : word ∈ modifierWords)
    (hends : EndsName rest) : (readModifier (word ++ rest)).Finds (.modifier word) rest :=
  (atom_finds (takeModifier?_eq_some_iff.mpr ⟨rfl, hword, hends⟩)).map _

/-- A modifier, or an annotation with arguments. -/
theorem readDecoration_finds {decoration : Decoration}
    (harguments : ∀ inside name after, decoration = .annotated inside name after none → False)
    (hlegal : Legal decoration.pieces rest) :
    ((readAnnotated (textOf decoration.pieces ++ rest)).orElse
      (readModifier (textOf decoration.pieces ++ rest))).Finds decoration rest := by
  cases decoration with
  | annotated inside name after arguments =>
    cases arguments with
    | none => exact (harguments inside name after rfl).elim
    | some text => exact (readAnnotated_finds hlegal).orElse _
  | modifier word =>
    have hword : word ∈ modifierWords ∧ EndsName rest := hlegal.1
    have hfinds := readModifier_finds hword.1 hword.2
    have hannotated : (readAnnotated (word ++ rest)).Fails := by
      obtain ⟨c, tail, rfl, hc⟩ := (isIdentifier_of_mem_modifierWords hword.1).exists_cons
      apply readAnnotated_fails
      intro d hd heq
      cases hd
      subst heq
      exact absurd hc (by decide)
    rw [Decoration.pieces, textOf_cons, textOf_nil, List.append_nil]
    exact hannotated.orElse_finds hfinds

/-- Decorations in front of a text that starts neither another one nor annotation arguments. -/
theorem decorations_end (decorations : List (Gap × Decoration)) (next : Gap)
    (hrest : StartsToken rest) (hopen : ∀ c ∈ rest.head?, c ≠ '(' ∧ '@' ≠ c)
    (hmodifier : takeModifier? rest = none)
    (hlegal : Legal (spread Decoration.pieces decorations ++ Gap.pieces next) rest) :
    (repeated (fun r => (readAnnotated r).orElse (readModifier r))
      (textOf (spread Decoration.pieces decorations) ++ (Gap.text next ++ rest))).Ends
      (settleDecorations decorations next).1
      (Gap.text (settleDecorations decorations next).2 ++ rest) ∧
    Legal (Gap.pieces (settleDecorations decorations next).2) rest := by
  fun_induction settleDecorations decorations next with
  | case1 next =>
    have hnext : Legal (Gap.pieces next) rest := by simpa using hlegal
    have hannotated := readAnnotated_fails fun c hc => (hopen c hc).2
    have hmodifier : (readModifier rest).Fails := (atom_fails hmodifier).map _
    exact ⟨(hannotated.orElse hmodifier).repeated (takeGap_append hnext hrest), hnext⟩
  | case2 next gap inside name after more gathered settled ih =>
    have hparts : Legal (Gap.pieces gap) ('@' :: (Gap.text inside ++ (name.text ++
          (Gap.text after ++ (textOf (spread Decoration.pieces more) ++
            (Gap.text next ++ rest)))))) ∧
        Legal (Gap.pieces inside) (name.text ++ (Gap.text after ++
          (textOf (spread Decoration.pieces more) ++ (Gap.text next ++ rest)))) ∧
        (name.IsLegal ∧ EndsName (Gap.text after ++
          (textOf (spread Decoration.pieces more) ++ (Gap.text next ++ rest)))) ∧
        Legal (Gap.pieces after ++ (spread Decoration.pieces more ++ Gap.pieces next)) rest := by
      simpa [Decoration.pieces, Piece.text, Piece.IsLegal, and_assoc] using hlegal
    obtain ⟨hgap, hinside, ⟨hname, hends⟩, hmore⟩ := hparts
    have hfinds := readAnnotated_finds_gather hinside hname hends hmore hrest
      fun c hc => (hopen c hc).1
    obtain ⟨hsettled, hlast⟩ := ih (gather_legal hmore).2
    have htext : textOf (spread Decoration.pieces
          ((gap, .annotated inside name after none) :: more)) ++ (Gap.text next ++ rest) =
        Gap.text gap ++ '@' :: (Gap.text inside ++ (name.text ++ (Gap.text after ++
          (textOf (spread Decoration.pieces more) ++ (Gap.text next ++ rest))))) := by
      simp [Decoration.pieces, Piece.text]
    have htake := takeGap_append hgap (startsToken_mark (by decide) _)
    rw [htext]
    exact ⟨(hfinds.orElse _).repeated htake hsettled, hlast⟩
  | case3 next gap decoration more hdecoration settled ih =>
    have hparts : Legal (Gap.pieces gap) (textOf decoration.pieces ++
          (textOf (spread Decoration.pieces more) ++ (Gap.text next ++ rest))) ∧
        Legal decoration.pieces
          (textOf (spread Decoration.pieces more) ++ (Gap.text next ++ rest)) ∧
        Legal (spread Decoration.pieces more ++ Gap.pieces next) rest := by
      simpa [and_assoc] using hlegal
    obtain ⟨hgap, hitem, hmore⟩ := hparts
    obtain ⟨hsettled, hlast⟩ := ih hmore
    have htext : textOf (spread Decoration.pieces ((gap, decoration) :: more)) ++
          (Gap.text next ++ rest) =
        Gap.text gap ++ (textOf decoration.pieces ++
          (textOf (spread Decoration.pieces more) ++ (Gap.text next ++ rest))) := by
      simp
    have htake := takeGap_append hgap (Decoration.startsToken hitem _)
    have hfinds := readDecoration_finds hdecoration hitem
    rw [htext]
    exact ⟨hfinds.repeated htake hsettled, hlast⟩

/-! ### Fields -/

/-- A type starts with an identifier. -/
theorem TypeTree.exists_head {type : TypeTree} (hlegal : Legal type.pieces rest) :
    ∃ c more, textOf type.pieces = c :: more ∧ isIdentifierStart c = true := by
  obtain ⟨pieces, hpieces⟩ := type.pieces_eq_cons
  rw [hpieces] at hlegal ⊢
  obtain ⟨c, more, hfirst, hc⟩ := hlegal.1.1.1.exists_cons
  refine ⟨c, more ++ (type.name.more.flatMap ('.' :: ·) ++ textOf pieces), ?_, hc⟩
  simp [Piece.text, Dotted.text, hfirst]

/-- No modifier is taken in front of a type whose first identifier is none. -/
theorem TypeTree.takeModifier?_eq_none {type : TypeTree} (hlegal : Legal type.pieces rest)
    (hword : type.name.first ∉ modifierWords) :
    takeModifier? (textOf type.pieces ++ rest) = none := by
  obtain ⟨pieces, hpieces⟩ := type.pieces_eq_cons
  rw [hpieces] at hlegal ⊢
  obtain ⟨⟨hname, hends⟩, -⟩ := hlegal
  have htext : textOf (.dotted type.name :: pieces) ++ rest =
      type.name.first ++ (type.name.more.flatMap ('.' :: ·) ++ (textOf pieces ++ rest)) := by
    simp [Piece.text, Dotted.text]
  rw [htext]
  exact Declaration.takeModifier?_eq_none hname.1 (hends.dots _) hword

/-- An identifier is followed neither by a bracket of any kind nor by a mark. -/
theorem head_ne_of_isIdentifierStart {c : Char} {more : List Char}
    (hc : isIdentifierStart c = true) {mark : Char} (hmark : isIdentifierStart mark = false) :
    ∀ d ∈ (c :: more).head?, mark ≠ d := by
  intro d hd heq
  cases hd
  subst heq
  cases hc.symm.trans hmark

/-- A field behind a gap. -/
theorem readField_finds {field : FieldTree} (hword : field.type.name.first ∉ modifierWords)
    (hlegal : Legal (Gap.pieces gap ++ field.pieces) rest) :
    ∃ r, takeGap (Gap.text gap ++ (textOf field.pieces ++ rest)) = ((field.settle gap).1, r) ∧
      (readField r).Finds (field.settle gap).2 rest := by
  obtain ⟨decorations, beforeType, type, beforeName, name, beforeEnd⟩ := field
  have hparts : Legal (Gap.pieces gap ++ (spread Decoration.pieces decorations ++
          Gap.pieces beforeType))
        (textOf type.pieces ++ (Gap.text beforeName ++
          (name ++ (Gap.text beforeEnd ++ ';' :: rest)))) ∧
      Legal (type.pieces ++ Gap.pieces beforeName) (name ++ (Gap.text beforeEnd ++ ';' :: rest)) ∧
      (IsIdentifier name ∧ EndsName (Gap.text beforeEnd ++ ';' :: rest)) ∧
      Legal (Gap.pieces beforeEnd) (';' :: rest) := by
    simpa [FieldTree.pieces, Piece.text, Piece.IsLegal, and_assoc] using hlegal
  obtain ⟨hdecorations, htype, ⟨hname, hends⟩, hend⟩ := hparts
  have htext : Gap.text gap ++ (textOf (FieldTree.pieces
        ⟨decorations, beforeType, type, beforeName, name, beforeEnd⟩) ++ rest) =
      Gap.text gap ++ (textOf (spread Decoration.pieces decorations) ++ (Gap.text beforeType ++
        (textOf type.pieces ++ (Gap.text beforeName ++
          (name ++ (Gap.text beforeEnd ++ ';' :: rest)))))) := by
    simp [FieldTree.pieces, Piece.text]
  rw [htext]
  have htypes : Legal type.pieces (Gap.text beforeName ++
      (name ++ (Gap.text beforeEnd ++ ';' :: rest))) := by
    simpa using (legal_append.mp htype).1
  have hstart := TypeTree.startsToken htypes
  have hgathered := startsToken_decorations
    (legal_append.mp (legal_append.mp hdecorations).2).1
  refine ⟨_, takeGap_gather hdecorations hgathered (hstart _), ?_⟩
  obtain ⟨c, more, htypeText, hc⟩ := TypeTree.exists_head htypes
  have hopen : ∀ d ∈ (textOf type.pieces ++ (Gap.text beforeName ++
      (name ++ (Gap.text beforeEnd ++ ';' :: rest)))).head?, d ≠ '(' ∧ '@' ≠ d := by
    rw [htypeText]
    exact fun d hd => ⟨(head_ne_of_isIdentifierStart hc (by decide) d hd).symm,
      head_ne_of_isIdentifierStart hc (by decide) d hd⟩
  obtain ⟨hread, hbeforeType⟩ := decorations_end (gather gap decorations beforeType).items
    (gather gap decorations beforeType).next (hstart _) hopen
    (TypeTree.takeModifier?_eq_none htypes hword) (gather_legal hdecorations).2
  have hstop : ∀ d ∈ (name ++ (Gap.text beforeEnd ++ ';' :: rest)).head?, '<' ≠ d ∧ '[' ≠ d := by
    obtain ⟨c, more, rfl, hc⟩ := hname.exists_cons
    exact fun d hd => ⟨head_ne_of_isIdentifierStart hc (by decide) d hd,
      head_ne_of_isIdentifierStart hc (by decide) d hd⟩
  apply Finds.within
  apply hread.andThen
  intro _
  apply (gap_ends hbeforeType (hstart _)).andThen
  intro _
  apply (readType_finds type beforeName _ htype (hname.startsToken _) hstop).andThen
  intro _
  apply (gap_ends (TypeTree.settle_legal htype) (hname.startsToken _)).andThen
  intro _
  apply (readIdentifier_finds hname hends).andThen
  intro _
  exact (readMark_finds hend (by decide)).map _

/-- No field starts with a closing brace. -/
theorem readField_fails (rest : List Char) : (readField ('\x7d' :: rest)).Fails := by
  have hstart : StartsToken ('\x7d' :: rest) := startsToken_mark (by decide) rest
  have hannotated : (readAnnotated ('\x7d' :: rest)).Fails :=
    readAnnotated_fails (by simp)
  have hmodifier : (readModifier ('\x7d' :: rest)).Fails := by
    refine Fails.map _ (atom_fails ?_)
    rw [takeModifier?, if_neg]
    simp [List.takeWhile, isIdentifierPart, modifierWords]
  have hname : (readName ('\x7d' :: rest)).Fails := readName_fails (by simp [isIdentifierStart])
  have htype : (readType ('\x7d' :: rest)).Fails := by
    rw [readType]
    exact (hname.finish _).within _
  have hdecorations : (repeated (fun r => (readAnnotated r).orElse (readModifier r))
      ('\x7d' :: rest)).Ends [] ('\x7d' :: rest) := by
    apply Fails.repeated _ (takeGap_of_skipOne? hstart.skipOne?)
    exact hannotated.orElse hmodifier
  apply Fails.within
  apply hdecorations.andThen_fails
  intro _
  apply (gap_ends_nil hstart).andThen_fails
  intro _
  exact htype.andThen _

/-! ### Blocks -/

/-- A block is read back when its items are, up to the closing brace. -/
theorem readBlock_finds {α β : Type} {read : (s : List Char) → Reading α s}
    {pieces : α → List Piece} {items settled : List (Gap × α)}
    {beforeName beforeBody beforeEnd : Gap} {name : List Char} (rule : Rule) (keyword : String)
    (make : Gap → List Char → Gap → List (Gap × α) → Gap → β)
    (nonempty : 0 < keyword.toList.length)
    (hlegal : Legal (blockPieces keyword pieces beforeName name beforeBody items beforeEnd) rest)
    (hitems : Legal (spread pieces items ++ Gap.pieces beforeEnd) ('\x7d' :: rest) →
      (repeated read (textOf (spread pieces items) ++
        (Gap.text beforeEnd ++ '\x7d' :: rest))).Ends settled
          (Gap.text beforeEnd ++ '\x7d' :: rest)) :
    (readBlock rule keyword read make
      (textOf (blockPieces keyword pieces beforeName name beforeBody items beforeEnd) ++ rest)
      nonempty).Finds (make beforeName name beforeBody settled beforeEnd) rest := by
  have hparts : Legal (Gap.pieces beforeName) (name ++ (Gap.text beforeBody ++ '\x7b' ::
        (textOf (spread pieces items) ++ (Gap.text beforeEnd ++ '\x7d' :: rest)))) ∧
      (IsIdentifier name ∧ EndsName (Gap.text beforeBody ++ '\x7b' ::
        (textOf (spread pieces items) ++ (Gap.text beforeEnd ++ '\x7d' :: rest)))) ∧
      Legal (Gap.pieces beforeBody) ('\x7b' ::
        (textOf (spread pieces items) ++ (Gap.text beforeEnd ++ '\x7d' :: rest))) ∧
      Legal (spread pieces items ++ Gap.pieces beforeEnd) ('\x7d' :: rest) := by
    simpa [blockPieces, Piece.text, Piece.IsLegal, and_assoc] using hlegal
  obtain ⟨hbeforeName, ⟨hname, hends⟩, hbeforeBody, hbody⟩ := hparts
  have htext : textOf (blockPieces keyword pieces beforeName name beforeBody items beforeEnd) ++
        rest =
      keyword.toList ++ (Gap.text beforeName ++ (name ++ (Gap.text beforeBody ++ '\x7b' ::
        (textOf (spread pieces items) ++ (Gap.text beforeEnd ++ '\x7d' :: rest))))) := by
    simp [blockPieces, Piece.text]
  rw [htext]
  apply Finds.within
  apply (word_finds keyword _ _).andThen
  intro _
  apply (gap_ends hbeforeName (hname.startsToken _)).andThen
  intro _
  apply (readIdentifier_finds hname hends).andThen
  intro _
  apply (readMark_finds hbeforeBody (by decide)).andThen
  intro _
  apply (hitems hbody).andThen
  intro _
  exact (readMark_finds (legal_append.mp hbody).2 (by decide)).map _

/-- Fields in front of a closing brace. -/
theorem fields_end {fields : List (Gap × FieldTree)}
    (hwords : ∀ field ∈ fields, field.2.type.name.first ∉ modifierWords)
    (hlegal : Legal (spread FieldTree.pieces fields ++ Gap.pieces next) ('\x7d' :: rest)) :
    (repeated readField
      (textOf (spread FieldTree.pieces fields) ++ (Gap.text next ++ '\x7d' :: rest))).Ends
      (fields.map fun item => item.2.settle item.1) (Gap.text next ++ '\x7d' :: rest) := by
  apply repeated_ends readField (fun item => item.2.settle item.1)
    (startsToken_mark (by decide) rest) (readField_fails rest) fields _ hlegal
  intro item hitem r hfield
  exact readField_finds (hwords item hitem) hfield

/-- A class. -/
theorem readClass_finds {tree : ClassTree} (hlegal : Legal tree.pieces rest)
    (hwords : ∀ field ∈ tree.fields, field.2.type.name.first ∉ modifierWords) :
    (readClass (textOf tree.pieces ++ rest)).Finds tree.settle rest :=
  readBlock_finds .consumer "class" ClassTree.mk (by decide) hlegal (fields_end hwords)

end PreferenceInjector.Declaration
