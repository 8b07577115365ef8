import PreferenceInjector.Proofs.Declaration.Completeness.Field

/-!
# How documents are read back

Entries, components and whole documents follow the same pattern as classes. The keywords of two
alternatives differ within their first letters, so the first alternative fails where the second
one is meant.
-/

namespace PreferenceInjector.Declaration

open Reading

variable {next : Gap} {rest : List Char}

/-! ### Entries -/

/-- A comma starts a token. -/
theorem startsToken_nextName {more : List (Gap × Gap × Dotted)} :
    ∀ item ∈ more, ∀ r, StartsToken (textOf (nextNamePieces item.2) ++ r) :=
  fun _ _ _ => startsToken_mark (c := ',') (by decide) _

/-- No dot follows where further names or the token behind them follow a name. -/
theorem noDot_nextNames {more : List (Gap × Gap × Dotted)}
    (hlegal : Legal (spread nextNamePieces more ++ Gap.pieces next) rest)
    (hrest : StartsToken rest) :
    NoDot (textOf (spread nextNamePieces more) ++ (Gap.text next ++ rest)) := by
  have hgaps : Legal (Gap.pieces [] ++ (spread nextNamePieces more ++ Gap.pieces next)) rest :=
    hlegal
  exact noDot_gap_items hgaps startsToken_nextName hrest

/-- The names behind commas, in front of a token that is none. -/
theorem moreNames_end (more : List (Gap × Gap × Dotted)) (hrest : StartsToken rest)
    (hcomma : ∀ c ∈ rest.head?, ',' ≠ c)
    (hlegal : Legal (spread nextNamePieces more ++ Gap.pieces next) rest) :
    (repeated readNextName (textOf (spread nextNamePieces more) ++ (Gap.text next ++ rest))).Ends
      more (Gap.text next ++ rest) := by
  induction more with
  | nil =>
    have hnext : Legal (Gap.pieces next) rest := by simpa using hlegal
    have hfails : (readNextName rest).Fails := (mark_fails hcomma).andThen _
    exact hfails.repeated (takeGap_append hnext hrest)
  | cons item more ih =>
    obtain ⟨before, after, name⟩ := item
    have hparts : Legal (Gap.pieces before) (',' :: (Gap.text after ++ (name.text ++
          (textOf (spread nextNamePieces more) ++ (Gap.text next ++ rest))))) ∧
        Legal (Gap.pieces after) (name.text ++
          (textOf (spread nextNamePieces more) ++ (Gap.text next ++ rest))) ∧
        (name.IsLegal ∧
          EndsName (textOf (spread nextNamePieces more) ++ (Gap.text next ++ rest))) ∧
        Legal (spread nextNamePieces more ++ Gap.pieces next) rest := by
      simpa [nextNamePieces, Piece.text, Piece.IsLegal, and_assoc] using hlegal
    obtain ⟨hbefore, hafter, ⟨hname, hends⟩, hmore⟩ := hparts
    have htext : textOf (spread nextNamePieces ((before, after, name) :: more)) ++
          (Gap.text next ++ rest) =
        Gap.text before ++ ',' :: (Gap.text after ++ (name.text ++
          (textOf (spread nextNamePieces more) ++ (Gap.text next ++ rest)))) := by
      simp [nextNamePieces, Piece.text]
    have hdot := noDot_nextNames hmore hrest
    have hread : (readNextName (',' :: (Gap.text after ++ (name.text ++
        (textOf (spread nextNamePieces more) ++ (Gap.text next ++ rest)))))).Finds (after, name)
        (textOf (spread nextNamePieces more) ++ (Gap.text next ++ rest)) := by
      apply (mark_finds ',' _).andThen
      intro _
      apply (gap_ends hafter (hname.startsToken _)).andThen
      intro _
      exact (readName_finds hname hends hdot).map _
    rw [htext]
    exact hread.repeated (takeGap_append hbefore (startsToken_mark (by decide) _)) (ih hmore)

/-- Names with commas between them, in front of another token. -/
theorem readNames_finds {names : NamesTree} (hrest : StartsToken rest)
    (hcomma : ∀ c ∈ rest.head?, ',' ≠ c) (hlegal : Legal (names.pieces ++ Gap.pieces next) rest) :
    (readNames (textOf names.pieces ++ (Gap.text next ++ rest))).Finds names
      (Gap.text next ++ rest) := by
  obtain ⟨beforeFirst, first, more⟩ := names
  have hparts : Legal (Gap.pieces beforeFirst) (first.text ++
        (textOf (spread nextNamePieces more) ++ (Gap.text next ++ rest))) ∧
      (first.IsLegal ∧
        EndsName (textOf (spread nextNamePieces more) ++ (Gap.text next ++ rest))) ∧
      Legal (spread nextNamePieces more ++ Gap.pieces next) rest := by
    simpa [NamesTree.pieces, Piece.text, Piece.IsLegal, and_assoc] using hlegal
  obtain ⟨hbefore, ⟨hfirst, hends⟩, hmore⟩ := hparts
  have htext : textOf (NamesTree.pieces ⟨beforeFirst, first, more⟩) ++ (Gap.text next ++ rest) =
      Gap.text beforeFirst ++ (first.text ++
        (textOf (spread nextNamePieces more) ++ (Gap.text next ++ rest))) := by
    simp [NamesTree.pieces, Piece.text]
  have hdot := noDot_nextNames hmore hrest
  rw [htext]
  apply (gap_ends hbefore (hfirst.startsToken _)).andThen
  intro _
  apply (readName_finds hfirst hends hdot).finish
  intro _
  apply (moreNames_end more hrest hcomma hmore).finish
  intro _
  exact Ending.ends_done _ _

/-- A keyword and names up to a semicolon. -/
theorem readList_finds {names : NamesTree} {beforeEnd : Gap} (rule : Rule) (keyword : String)
    (make : NamesTree → Gap → EntryTree) (nonempty : 0 < keyword.toList.length)
    (hlegal : Legal (.fixed keyword.toList :: names.pieces ++ Gap.pieces beforeEnd ++
      [.fixed [';']]) rest) :
    (readList rule keyword make (textOf (.fixed keyword.toList :: names.pieces ++
      Gap.pieces beforeEnd ++ [.fixed [';']]) ++ rest) nonempty).Finds
      (make names beforeEnd) rest := by
  have hcomma : ∀ c ∈ (';' :: rest).head?, ',' ≠ c := by
    intro c hc
    cases hc
    decide
  have hnames : Legal (names.pieces ++ Gap.pieces beforeEnd) (';' :: rest) := by
    simpa [Piece.text, Piece.IsLegal, and_assoc] using hlegal
  have htext : textOf (.fixed keyword.toList :: names.pieces ++ Gap.pieces beforeEnd ++
        [.fixed [';']]) ++ rest =
      keyword.toList ++ (textOf names.pieces ++ (Gap.text beforeEnd ++ ';' :: rest)) := by
    simp [Piece.text]
  rw [htext]
  apply Finds.within
  apply (word_finds keyword _ _).andThen
  intro _
  apply (readNames_finds (startsToken_mark (by decide) rest) hcomma hnames).andThen
  intro _
  exact (readMark_finds (legal_append.mp hnames).2 (by decide)).map _

/-- A list of wrappers or of injected classes. -/
theorem readEntry_finds {entry : EntryTree} (hlegal : Legal entry.pieces rest) :
    ((readEntities (textOf entry.pieces ++ rest)).orElse
      (readInject (textOf entry.pieces ++ rest))).Finds entry rest := by
  cases entry with
  | entities names beforeEnd =>
    apply Finds.orElse
    exact readList_finds .entities "entities" .entities (by decide) hlegal
  | inject names beforeEnd =>
    apply Fails.orElse_finds
    · exact ((word_fails rfl).andThen _).within _
    · exact readList_finds .inject "inject" .inject (by decide) hlegal

/-- No entry starts with a closing brace. -/
theorem readEntry_fails (rest : List Char) :
    ((readEntities ('\x7d' :: rest)).orElse (readInject ('\x7d' :: rest))).Fails := by
  have hentities : (readEntities ('\x7d' :: rest)).Fails := ((word_fails rfl).andThen _).within _
  have hinject : (readInject ('\x7d' :: rest)).Fails := ((word_fails rfl).andThen _).within _
  exact hentities.orElse hinject

/-- An entry starts with its keyword. -/
theorem EntryTree.startsToken (entry : EntryTree) (r : List Char) :
    StartsToken (textOf entry.pieces ++ r) := by
  cases entry with
  | entities names beforeEnd => exact startsToken_of_isIdentifierStart (c := 'e') (by decide) _
  | inject names beforeEnd => exact startsToken_of_isIdentifierStart (c := 'i') (by decide) _

/-- Entries in front of a closing brace. -/
theorem entries_end {entries : List (Gap × EntryTree)}
    (hlegal : Legal (spread EntryTree.pieces entries ++ Gap.pieces next) ('\x7d' :: rest)) :
    (repeated (fun t => (readEntities t).orElse (readInject t))
      (textOf (spread EntryTree.pieces entries) ++ (Gap.text next ++ '\x7d' :: rest))).Ends entries
      (Gap.text next ++ '\x7d' :: rest) := by
  have hends := repeated_ends (fun t => (readEntities t).orElse (readInject t)) id
    (startsToken_mark (by decide) rest) (readEntry_fails rest) entries ?_ hlegal
  · rw [List.map_id] at hends
    exact hends
  · intro item _ r hitem
    rw [legal_append] at hitem
    exact ⟨_, takeGap_append hitem.1 (item.2.startsToken r), readEntry_finds hitem.2⟩

/-! ### Blocks and package clauses -/

/-- A component. -/
theorem readComponent_finds {tree : ComponentTree} (hlegal : Legal tree.pieces rest) :
    (readComponent (textOf tree.pieces ++ rest)).Finds tree rest :=
  readBlock_finds .component "component" ComponentTree.mk (by decide) hlegal entries_end

/-- A component or a class. -/
theorem readItem_finds {item : ItemTree} (hlegal : Legal item.pieces rest)
    (hwords : ∀ field ∈ item.fields, field.type.name.first ∉ modifierWords) :
    (readItem (textOf item.pieces ++ rest)).Finds item.settle rest := by
  cases item with
  | component tree => exact ((readComponent_finds hlegal).map _).orElse _
  | consumer tree =>
    have hfails : (readComponent (textOf tree.pieces ++ rest)).Fails :=
      ((word_fails rfl).andThen _).within _
    have hclass := readClass_finds hlegal
      fun field hfield => hwords field.2 (List.mem_map_of_mem hfield)
    exact (hfails.map _).orElse_finds (hclass.map _)

/-- A block starts with its keyword. -/
theorem ItemTree.startsToken (item : ItemTree) (r : List Char) :
    StartsToken (textOf item.pieces ++ r) := by
  cases item with
  | component tree => exact startsToken_of_isIdentifierStart (c := 'c') (by decide) _
  | consumer tree => exact startsToken_of_isIdentifierStart (c := 'c') (by decide) _

/-- A package clause. -/
theorem readPackage_finds {tree : PackageTree} (hlegal : Legal tree.pieces rest) :
    (readPackage (textOf tree.pieces ++ rest)).Finds tree rest := by
  obtain ⟨beforeName, name, beforeEnd⟩ := tree
  have hparts : Legal (Gap.pieces beforeName) (name.text ++ (Gap.text beforeEnd ++ ';' :: rest)) ∧
      (name.IsLegal ∧ EndsName (Gap.text beforeEnd ++ ';' :: rest)) ∧
      Legal (Gap.pieces beforeEnd) (';' :: rest) := by
    simpa [PackageTree.pieces, Piece.text, Piece.IsLegal, and_assoc] using hlegal
  obtain ⟨hbeforeName, ⟨hname, hends⟩, hend⟩ := hparts
  have htext : textOf (PackageTree.pieces ⟨beforeName, name, beforeEnd⟩) ++ rest =
      "package".toList ++ (Gap.text beforeName ++
        (name.text ++ (Gap.text beforeEnd ++ ';' :: rest))) := by
    simp [PackageTree.pieces, Piece.text]
  have hdot := noDot_gap hend (startsToken_mark (c := ';') (by decide) rest).noDot
  rw [htext]
  apply Finds.within
  apply (word_finds "package" _ _).andThen
  intro _
  apply (gap_ends hbeforeName (hname.startsToken _)).andThen
  intro _
  apply (readName_finds hname hends hdot).andThen
  intro _
  exact (readMark_finds hend (by decide)).map _

/-- A package clause starts with its keyword. -/
theorem readPackage_fails {s : List Char} (h : dropWord? "package".toList s = none) :
    (readPackage s).Fails :=
  ((word_fails h).andThen _).within _

/-! ### Documents -/

/-- Blocks at the end of a text. -/
theorem items_end {items : List (Gap × ItemTree)}
    (hlegal : Legal (spread ItemTree.pieces items ++ Gap.pieces next) [])
    (hwords : ∀ item ∈ items, ∀ field ∈ item.2.fields,
      field.type.name.first ∉ modifierWords) :
    (repeated readItem (textOf (spread ItemTree.pieces items) ++ (Gap.text next ++ []))).Ends
      (items.map fun (gap, item) => (gap, item.settle)) (Gap.text next ++ []) := by
  have hfails : (readItem []).Fails := by
    have hcomponent : (readComponent []).Fails := ((word_fails rfl).andThen _).within _
    have hclass : (readClass []).Fails := ((word_fails rfl).andThen _).within _
    exact (hcomponent.map _).orElse (hclass.map _)
  apply repeated_ends readItem (fun (gap, item) => (gap, item.settle)) _ hfails items _ hlegal
  · intro c h
    cases h
  · intro item hmem r hitem
    rw [legal_append] at hitem
    exact ⟨_, takeGap_append hitem.1 (item.2.startsToken r),
      readItem_finds hitem.2 (hwords item hmem)⟩

/-- Gathering changes no item. -/
theorem exists_of_mem_gather {α : Type} {gap next : Gap} {items : List (Gap × α)} {item : Gap × α}
    (h : item ∈ (gather gap items next).items) : ∃ before, (before, item.2) ∈ items := by
  cases items with
  | nil => simp [gather] at h
  | cons first more =>
    rcases List.mem_cons.mp h with rfl | h
    · exact ⟨first.1, List.mem_cons_self⟩
    · exact ⟨item.1, List.mem_cons_of_mem _ h⟩

/-- The text of a well-formed document is read to its end, as the settled document. -/
theorem readDocument_ends {document : Document} (h : document.WellFormed) :
    (readDocument (textOf document.pieces)).Ends document.settle [] := by
  obtain ⟨hlegal, hwords⟩ := h
  have hwords : ∀ item ∈ document.items, ∀ field ∈ item.2.fields,
      field.type.name.first ∉ modifierWords :=
    fun item hitem field hfield => hwords field (Document.mem_fields.mpr ⟨item, hitem, hfield⟩)
  have hempty : StartsToken [] := by
    intro c hempty
    cases hempty
  obtain ⟨atStart, package, items, atEnd⟩ := document
  cases package with
  | some package =>
    have hparts : Legal (Gap.pieces atStart) (textOf package.pieces ++
          (textOf (spread ItemTree.pieces items) ++ (Gap.text atEnd ++ []))) ∧
        Legal package.pieces (textOf (spread ItemTree.pieces items) ++ (Gap.text atEnd ++ [])) ∧
        Legal (spread ItemTree.pieces items ++ Gap.pieces atEnd) [] := by
      simpa [Document.pieces, and_assoc] using hlegal
    obtain ⟨hstart, hpackage, hitems⟩ := hparts
    have htext : textOf (Document.pieces ⟨atStart, some package, items, atEnd⟩) =
        Gap.text atStart ++ (textOf package.pieces ++
          (textOf (spread ItemTree.pieces items) ++ (Gap.text atEnd ++ []))) := by
      simp [Document.pieces]
    have htoken := startsToken_of_isIdentifierStart (c := 'p') (by decide)
    rw [htext]
    apply (gap_ends hstart (htoken _)).finish
    intro _
    apply (readPackage_finds hpackage).optional.finish
    intro _
    apply (items_end hitems hwords).finish
    intro _
    apply (gap_ends (legal_append.mp hitems).2 hempty).finish
    intro _
    exact Ending.ends_done _ []
  | none =>
    have hgaps : Legal (Gap.pieces atStart ++
        (spread ItemTree.pieces items ++ Gap.pieces atEnd)) [] := by
      simpa [Document.pieces] using hlegal
    have htext : textOf (Document.pieces ⟨atStart, none, items, atEnd⟩) =
        Gap.text atStart ++ (textOf (spread ItemTree.pieces items) ++ (Gap.text atEnd ++ [])) := by
      simp [Document.pieces]
    have hitem : ∀ item ∈ items, ∀ r,
        dropWord? "package".toList (textOf (ItemTree.pieces item.2) ++ r) = none := by
      intro item _ r
      cases item.2 with
      | component tree => rfl
      | consumer tree => rfl
    have hpackage := gather_rest (dropWord? "package".toList · = none) atStart atEnd hitem
      (rfl : dropWord? "package".toList [] = none)
    have hitems := (gather_legal hgaps).2
    rw [htext]
    apply (gap_ends_gather hgaps (fun item _ r => item.2.startsToken r) hempty).finish
    intro _
    apply (readPackage_fails hpackage).optional.finish
    intro _
    apply (items_end hitems ?_).finish
    · intro _
      apply (gap_ends (legal_append.mp hitems).2 hempty).finish
      intro _
      exact Ending.ends_done _ []
    · intro item hmem
      obtain ⟨before, hbefore⟩ := exists_of_mem_gather hmem
      exact hwords (before, item.2) hbefore

/-- The text of a well-formed document stands for the settled document. -/
theorem Document.ofText?_text {document : Document} (h : document.WellFormed) :
    Document.ofText? document.text = some document.settle := by
  obtain ⟨hvalue, hrest⟩ := readDocument_ends h
  rw [← document.textOf_pieces]
  simp only [Document.ofText?, hvalue, hrest, List.isEmpty_nil, if_true]

/-- A text stands for documents with that text only, and they are well formed. -/
theorem Document.of_ofText? {s : List Char} {document : Document}
    (h : Document.ofText? s = some document) : document.WellFormed ∧ document.text = s := by
  obtain ⟨⟨htext, hlegal⟩, hwords⟩ := readDocument_gives s
  simp only [Document.ofText?] at h
  split at h
  · next hempty =>
    rw [List.isEmpty_iff] at hempty
    cases h
    rw [hempty] at htext hlegal
    rw [List.append_nil] at htext
    exact ⟨⟨hlegal, hwords⟩, by rw [← Document.textOf_pieces, ← htext]⟩
  · cases h

end PreferenceInjector.Declaration
