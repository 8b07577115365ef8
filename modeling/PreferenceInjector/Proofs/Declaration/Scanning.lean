import PreferenceInjector.Proofs.Declaration.Layout
import Mathlib.Data.List.Infix
import Mathlib.Data.List.TakeWhile

/-!
# What the scanners take

Each scanner takes exactly the legal piece at the front of a text: what it finds is legal in front
of the rest that it leaves, and it finds every legal piece again. Both directions are stated of the
text as `piece ++ rest`, so the grammar never has to look inside a scanner.
-/

namespace PreferenceInjector.Declaration

/-! ### Runs of characters -/

/-- A run is taken whole when the text after it starts with no further character of the run. -/
theorem takeWhile_append_stop {p : Char → Bool} {run rest : List Char}
    (hrun : ∀ c ∈ run, p c = true) (hstop : ∀ c ∈ rest.head?, p c = false) :
    (run ++ rest).takeWhile p = run := by
  rw [List.takeWhile_append_of_pos hrun]
  cases rest with
  | nil => simp
  | cons c rest => simp [hstop c rfl]

/-- A run is dropped whole when the text after it starts with no further character of the run. -/
theorem dropWhile_append_stop {p : Char → Bool} {run rest : List Char}
    (hrun : ∀ c ∈ run, p c = true) (hstop : ∀ c ∈ rest.head?, p c = false) :
    (run ++ rest).dropWhile p = rest := by
  rw [List.dropWhile_append_of_pos hrun]
  cases rest with
  | nil => rfl
  | cons c rest => simp [hstop c rfl]

/-- A dropped run ends in front of a character that does not belong to it. -/
theorem head?_dropWhile_stop (p : Char → Bool) (s : List Char) :
    ∀ c ∈ (s.dropWhile p).head?, p c = false := by
  intro c hc
  have h := List.head?_dropWhile_not p s
  rw [hc] at h
  exact h

/-! ### Gaps -/

/-- The body of a block comment ends at the first closing mark. -/
theorem blockBody_eq_some_iff {s body rest : List Char} :
    blockBody s = some (body, rest) ↔
      s = body ++ '*' :: '/' :: rest ∧ ¬ ['*', '/'] <:+: body := by
  constructor
  · intro h
    fun_induction blockBody s generalizing body with
    | case1 => cases h
    | case2 after =>
      cases h
      simp
    | case3 c after hne ih =>
      obtain ⟨⟨b, a⟩, hb, hp⟩ := Option.map_eq_some_iff.mp h
      cases hp
      obtain ⟨rfl, hbody⟩ := ih hb
      refine ⟨rfl, ?_⟩
      rw [List.infix_cons_iff, not_or]
      refine ⟨?_, hbody⟩
      -- A closing mark here would have been found before the body went on.
      intro hmark
      obtain ⟨tail, htail⟩ := hmark
      simp only [List.cons_append, List.nil_append, List.cons.injEq] at htail
      obtain ⟨rfl, rfl⟩ := htail
      exact hne (tail ++ '*' :: '/' :: rest) rfl rfl
  · intro h
    obtain ⟨rfl, hbody⟩ := h
    induction body with
    | nil => rfl
    | cons c body ih =>
      rw [List.infix_cons_iff, not_or] at hbody
      have hne : ∀ tail, c = '*' → body ++ '*' :: '/' :: rest = '/' :: tail → False := by
        intro tail heq htail
        subst heq
        cases body with
        | nil => simp at htail
        | cons d body =>
          simp only [List.cons_append, List.cons.injEq] at htail
          exact hbody.1 ⟨body, by simp [htail.1]⟩
      rw [List.cons_append, blockBody.eq_3 _ _ hne, ih hbody.2]
      rfl

/-- A piece that is skipped is complete in front of the rest, and every complete piece is. -/
theorem skipOne?_eq_some_iff {s rest : List Char} {piece : Skipped} :
    skipOne? s = some (piece, rest) ↔ s = piece.text ++ rest ∧ piece.IsComplete rest := by
  constructor
  · intro h
    unfold skipOne? at h
    split at h
    · next after =>
      cases h
      refine ⟨by simp [Skipped.text], ?_, ?_⟩
      · intro c hc
        simpa using List.mem_takeWhile_imp hc
      · intro c hc
        simpa using head?_dropWhile_stop _ _ c hc
    · next after =>
      obtain ⟨⟨b, a⟩, hb, hp⟩ := Option.map_eq_some_iff.mp h
      cases hp
      obtain ⟨rfl, hbody⟩ := blockBody_eq_some_iff.mp hb
      exact ⟨by simp [Skipped.text], hbody⟩
    · split at h
      · next hblank =>
        cases h
        exact ⟨rfl, hblank⟩
      · cases h
    · cases h
  · intro h
    obtain ⟨rfl, hpiece⟩ := h
    cases piece with
    | blank c =>
      have hslash : c ≠ '/' := by
        intro heq
        subst heq
        exact absurd (show isBlank '/' = true from hpiece) (by decide)
      simp only [Skipped.text, List.cons_append, List.nil_append]
      rw [skipOne?.eq_3 _ _ (fun _ h _ => hslash h) (fun _ h _ => hslash h)]
      exact if_pos hpiece
    | lineComment body =>
      obtain ⟨hbody, hrest⟩ := hpiece
      have hrun : ∀ c ∈ body, (! isLineEnd c) = true := fun c hc => by simp [hbody c hc]
      have hstop : ∀ c ∈ rest.head?, (! isLineEnd c) = false := fun c hc => by simp [hrest c hc]
      simp only [Skipped.text, List.cons_append]
      rw [skipOne?.eq_1, takeWhile_append_stop hrun hstop, dropWhile_append_stop hrun hstop]
    | blockComment body =>
      have hbody : blockBody (body ++ '*' :: '/' :: rest) = some (body, rest) :=
        blockBody_eq_some_iff.mpr ⟨rfl, hpiece⟩
      simp only [Skipped.text, List.cons_append, List.append_assoc, List.nil_append]
      rw [skipOne?.eq_2, hbody]
      rfl

/-- A text in front of which a gap can end: it starts with neither a blank nor a slash. A name can
not go on there after a dot either. -/
def StartsToken (rest : List Char) : Prop :=
  ∀ c ∈ rest.head?, isBlank c = false ∧ c ≠ '/' ∧ c ≠ '.'

/-- Nothing is skipped where a token starts. -/
theorem StartsToken.skipOne? {rest : List Char} (h : StartsToken rest) : skipOne? rest = none := by
  cases rest with
  | nil => rfl
  | cons c rest =>
    obtain ⟨hblank, hslash, -⟩ := h c rfl
    rw [skipOne?.eq_3 _ _ (fun _ h _ => hslash h) (fun _ h _ => hslash h)]
    simp [hblank]

/-- A gap is legal when its first piece is complete in front of the others and these are legal. -/
theorem legal_pieces_cons {piece : Skipped} {gap : Gap} {rest : List Char} :
    Legal (Gap.pieces (piece :: gap)) rest ↔
      piece.IsComplete (Gap.text gap ++ rest) ∧ Legal (Gap.pieces gap) rest := by
  rw [← textOf_pieces_gap]
  rfl

/-- The gap at the front of a text is legal and cannot go on. -/
theorem takeGap_spec (s : List Char) :
    s = Gap.text (takeGap s).1 ++ (takeGap s).2 ∧
      Legal (Gap.pieces (takeGap s).1) (takeGap s).2 ∧ skipOne? (takeGap s).2 = none := by
  fun_induction takeGap s with
  | case1 s piece rest h gap after heq ih =>
    rw [heq] at ih
    obtain ⟨hrest, hlegal, hend⟩ := ih
    obtain ⟨hs, hpiece⟩ := skipOne?_eq_some_iff.mp h
    refine ⟨?_, legal_pieces_cons.mpr ⟨?_, hlegal⟩, hend⟩
    · rw [hs, hrest]
      simp [Gap.text]
    · rwa [hrest] at hpiece
  | case2 s h => exact ⟨rfl, trivial, h⟩

/-- Nothing is taken where no gap starts. -/
theorem takeGap_of_skipOne? {s : List Char} (h : skipOne? s = none) : takeGap s = ([], s) := by
  rw [takeGap]
  split
  · next hskip =>
    rw [h] at hskip
    cases hskip
  · rfl

/-- A legal gap is taken whole where nothing behind it can be skipped. -/
theorem takeGap_append_of_skipOne? {gap : Gap} {rest : List Char}
    (hgap : Legal (Gap.pieces gap) rest) (hrest : skipOne? rest = none) :
    takeGap (Gap.text gap ++ rest) = (gap, rest) := by
  induction gap with
  | nil => exact takeGap_of_skipOne? hrest
  | cons piece gap ih =>
    obtain ⟨hpiece, hgap⟩ := legal_pieces_cons.mp hgap
    have hskip : skipOne? (Gap.text (piece :: gap) ++ rest) =
        some (piece, Gap.text gap ++ rest) := by
      rw [skipOne?_eq_some_iff]
      exact ⟨by simp [Gap.text], hpiece⟩
    rw [takeGap]
    split
    · next found after h =>
      rw [hskip] at h
      cases h
      rw [ih hgap]
    · next h =>
      rw [hskip] at h
      cases h

/-- A legal gap in front of a token is taken whole. -/
theorem takeGap_append {gap : Gap} {rest : List Char} (hgap : Legal (Gap.pieces gap) rest)
    (hrest : StartsToken rest) : takeGap (Gap.text gap ++ rest) = (gap, rest) :=
  takeGap_append_of_skipOne? hgap hrest.skipOne?

/-! ### Names -/

/-- An identifier goes on as long as the text does. -/
theorem takeIdentifier?_eq_some_iff {s name rest : List Char} :
    takeIdentifier? s = some (name, rest) ↔
      s = name ++ rest ∧ IsIdentifier name ∧ EndsName rest := by
  constructor
  · intro h
    cases s with
    | nil => cases h
    | cons c s =>
      simp only [takeIdentifier?] at h
      split at h
      · next hc =>
        cases h
        exact ⟨by simp, ⟨hc, fun d hd => List.mem_takeWhile_imp hd⟩, head?_dropWhile_stop _ s⟩
      · cases h
  · intro h
    obtain ⟨rfl, hname, hrest⟩ := h
    cases name with
    | nil => exact hname.elim
    | cons c name =>
      rw [List.cons_append, takeIdentifier?, if_pos hname.1,
        takeWhile_append_stop hname.2 hrest, dropWhile_append_stop hname.2 hrest]

/-- A name ends in front of a dot, so the parts of a dotted name do not run into each other. -/
theorem EndsName.dots {rest : List Char} (h : EndsName rest) (more : List (List Char)) :
    EndsName (more.flatMap ('.' :: ·) ++ rest) := by
  cases more with
  | nil => exact h
  | cons _ _ =>
    intro c hc
    cases hc
    decide

/-- What is taken after a name are identifiers with dots before them. -/
theorem takeDotted_spec {s : List Char} (hs : EndsName s) :
    s = (takeDotted s).1.flatMap ('.' :: ·) ++ (takeDotted s).2 ∧
      (∀ part ∈ (takeDotted s).1, IsIdentifier part) ∧ EndsName (takeDotted s).2 := by
  fun_induction takeDotted s with
  | case1 rest name after h more last heq ih =>
    obtain ⟨rfl, hname, hafter⟩ := takeIdentifier?_eq_some_iff.mp h
    rw [heq] at ih
    obtain ⟨htext, hparts, hlast⟩ := ih hafter
    refine ⟨?_, ?_, hlast⟩
    · rw [htext]
      simp
    · exact List.forall_mem_cons.mpr ⟨hname, hparts⟩
  | case2 rest h => exact ⟨rfl, by simp, hs⟩
  | case3 s h => exact ⟨rfl, by simp, hs⟩

/-- The parts of a dotted name are taken up to a text that goes on neither with an identifier nor
with a dot. -/
theorem takeDotted_append {more : List (List Char)} {rest : List Char}
    (hmore : ∀ part ∈ more, IsIdentifier part) (hrest : EndsName rest)
    (hdot : ∀ c ∈ rest.head?, c ≠ '.') :
    takeDotted (more.flatMap ('.' :: ·) ++ rest) = (more, rest) := by
  induction more with
  | nil =>
    cases rest with
    | nil => simp [takeDotted]
    | cons c rest =>
      rw [List.flatMap_nil, List.nil_append, takeDotted.eq_2]
      intro tail h
      obtain ⟨rfl, -⟩ := h
      exact hdot '.' rfl rfl
  | cons part more ih =>
    obtain ⟨hpart, hmore⟩ := List.forall_mem_cons.mp hmore
    have htake : takeIdentifier? (part ++ (more.flatMap ('.' :: ·) ++ rest)) =
        some (part, more.flatMap ('.' :: ·) ++ rest) :=
      takeIdentifier?_eq_some_iff.mpr ⟨rfl, hpart, hrest.dots more⟩
    simp only [List.flatMap_cons, List.cons_append, List.append_assoc]
    rw [takeDotted]
    split
    · next name after h =>
      rw [htake] at h
      cases h
      rw [ih hmore]
    · next h => rw [htake] at h; cases h

/-- A dotted name that is taken is legal, and no identifier goes on behind it. -/
theorem takeName?_spec {s rest : List Char} {name : Dotted} (h : takeName? s = some (name, rest)) :
    s = name.text ++ rest ∧ name.IsLegal ∧ EndsName rest := by
  obtain ⟨⟨first, after⟩, hfirst, hname⟩ := Option.map_eq_some_iff.mp h
  obtain ⟨rfl, hlegal, hafter⟩ := takeIdentifier?_eq_some_iff.mp hfirst
  cases hname
  obtain ⟨htext, hmore, hrest⟩ := takeDotted_spec hafter
  refine ⟨?_, ⟨hlegal, hmore⟩, hrest⟩
  rw [Dotted.text, List.append_assoc, ← htext]

/-- A legal dotted name is taken whole in front of a text that does not continue it. -/
theorem takeName?_append {name : Dotted} {rest : List Char} (hname : name.IsLegal)
    (hrest : EndsName rest) (hdot : ∀ c ∈ rest.head?, c ≠ '.') :
    takeName? (name.text ++ rest) = some (name, rest) := by
  have hfirst : takeIdentifier? (name.first ++ (name.more.flatMap ('.' :: ·) ++ rest)) =
      some (name.first, name.more.flatMap ('.' :: ·) ++ rest) :=
    takeIdentifier?_eq_some_iff.mpr ⟨rfl, hname.1, hrest.dots name.more⟩
  rw [takeName?, Dotted.text, List.append_assoc, hfirst, Option.map_some]
  simp only [takeDotted_append hname.2 hrest hdot]

/-- Every modifier word could be an identifier. -/
theorem isIdentifier_of_mem_modifierWords {word : List Char} (h : word ∈ modifierWords) :
    IsIdentifier word := by
  have hwords : ∀ word ∈ modifierWords, IsIdentifier word := by decide
  exact hwords word h

/-- An identifier can start with no character that could not also continue one. -/
theorem isIdentifierPart_of_isIdentifierStart {c : Char} (h : isIdentifierStart c = true) :
    isIdentifierPart c = true := by
  simp only [isIdentifierStart, isIdentifierPart, Char.isAlphanum, Bool.or_eq_true] at h ⊢
  tauto

/-- Every character of an identifier could continue one. -/
theorem IsIdentifier.isIdentifierPart {name : List Char} (h : IsIdentifier name) :
    ∀ c ∈ name, isIdentifierPart c = true := by
  cases name with
  | nil => exact h.elim
  | cons c name =>
    exact List.forall_mem_cons.mpr ⟨isIdentifierPart_of_isIdentifierStart h.1, h.2⟩

/-- An identifier is the run of identifier characters at the front of its text. -/
theorem IsIdentifier.takeWhile_append {name rest : List Char} (h : IsIdentifier name)
    (hrest : EndsName rest) :
    (name ++ rest).takeWhile Declaration.isIdentifierPart = name :=
  takeWhile_append_stop h.isIdentifierPart hrest

/-- A modifier is one of the modifier words that no identifier continues. -/
theorem takeModifier?_eq_some_iff {s word rest : List Char} :
    takeModifier? s = some (word, rest) ↔
      s = word ++ rest ∧ word ∈ modifierWords ∧ EndsName rest := by
  constructor
  · intro h
    simp only [takeModifier?] at h
    split at h
    · next hword =>
      cases h
      exact ⟨by simp, by simpa using hword, head?_dropWhile_stop _ s⟩
    · cases h
  · intro h
    obtain ⟨rfl, hword, hrest⟩ := h
    have hname := isIdentifier_of_mem_modifierWords hword
    rw [takeModifier?, hname.takeWhile_append hrest,
      dropWhile_append_stop hname.isIdentifierPart hrest]
    exact if_pos (by simpa using hword)

/-- A text that starts with an identifier starts with a modifier only if this is the identifier. -/
theorem takeModifier?_eq_none {name rest : List Char} (hname : IsIdentifier name)
    (hrest : EndsName rest) (hword : name ∉ modifierWords) :
    takeModifier? (name ++ rest) = none := by
  rw [takeModifier?, hname.takeWhile_append hrest]
  exact if_neg (by simpa using hword)

/-! ### Annotation arguments -/

/-- A literal ends at the first quote that no backslash takes along. -/
theorem literalBody_eq_some_iff {quote : Char} (hquote : quote ≠ '\\') {s body rest : List Char} :
    literalBody quote s = some (body, rest) ↔ s = body ++ rest ∧ Quoted quote body := by
  constructor
  · intro h
    fun_induction literalBody quote s generalizing body with
    | case1 => cases h
    | case2 c after ih =>
      obtain ⟨⟨b, a⟩, hb, hp⟩ := Option.map_eq_some_iff.mp h
      cases hp
      obtain ⟨rfl, hbody⟩ := ih hb
      exact ⟨rfl, .escaped hbody⟩
    | case3 =>
      cases h
      exact ⟨rfl, .close⟩
    | case4 c after hescape hc ih =>
      obtain ⟨⟨b, a⟩, hb, hp⟩ := Option.map_eq_some_iff.mp h
      cases hp
      obtain ⟨rfl, hbody⟩ := ih hb
      refine ⟨rfl, .plain hc ?_ hbody⟩
      intro heq
      subst heq
      cases hbody with
      | close => exact hescape _ _ rfl rfl
      | escaped _ => exact hescape _ _ rfl rfl
      | plain _ _ _ => exact hescape _ _ rfl rfl
  · intro h
    obtain ⟨rfl, hbody⟩ := h
    induction hbody with
    | close =>
      rw [List.cons_append, literalBody.eq_3 _ _ _ (fun _ _ h _ => hquote h)]
      exact if_pos rfl
    | escaped _ ih =>
      rw [List.cons_append, List.cons_append, literalBody.eq_2, ih]
      rfl
    | plain hc hescape _ ih =>
      rw [List.cons_append, literalBody.eq_3 _ _ _ (fun _ _ h _ => hescape h), if_neg hc, ih]
      rfl

/-- Neither quote is a backslash. -/
theorem ne_backslash_of_quote {c : Char} (h : c = '"' ∨ c = '\'') : c ≠ '\\' := by
  intro heq
  subst heq
  revert h
  decide

/-- A literal is taken with its rest. -/
theorem literalAt?_eq_some {s word rest : List Char} {hlen : rest.length < s.length}
    (h : literalAt? s = some (word, ⟨rest, hlen⟩)) :
    ∃ quote body, (quote = '"' ∨ quote = '\'') ∧ Quoted quote body ∧ word = quote :: body ∧
      s = word ++ rest := by
  unfold literalAt? at h
  split at h
  · next found after htake =>
    cases h
    cases s with
    | nil => cases htake
    | cons c s =>
      simp only [takeLiteral?] at htake
      split at htake
      · next hquote =>
        obtain ⟨⟨body, after⟩, hbody, hp⟩ := Option.map_eq_some_iff.mp htake
        cases hp
        obtain ⟨rfl, hquoted⟩ :=
          (literalBody_eq_some_iff (ne_backslash_of_quote hquote)).mp hbody
        exact ⟨c, body, hquote, hquoted, rfl, rfl⟩
      · cases htake
  · cases h

mutual

/-- Taken arguments are balanced text in parentheses. -/
theorem takeArguments?_spec (s : List Char) :
    ∀ text rest, takeArguments? s = some (text, rest) → s = text ++ rest.1 ∧ IsArguments text := by
  intro text rest h
  match s with
  | [] =>
    rw [takeArguments?] at h
    cases h
  | c :: s =>
    rw [takeArguments?] at h
    split at h
    · next hc =>
      have htext := takeArgumentText_spec s
      split at h
      · cases h
      · next body last after hlen heq =>
        rw [heq] at htext
        split at h
        · next hlast =>
          cases h
          subst hc hlast
          exact ⟨by simpa using htext.1, body, htext.2, rfl⟩
        · cases h
    · cases h
termination_by (s.length, 0)

/-- The text taken between parentheses is balanced. -/
theorem takeArgumentText_spec (s : List Char) :
    s = (takeArgumentText s).1 ++ (takeArgumentText s).2.1 ∧ Balanced (takeArgumentText s).1 := by
  rw [takeArgumentText.eq_def]
  split
  · next word rest hlen h =>
    obtain ⟨quote, body, hquote, hbody, rfl, hs⟩ := literalAt?_eq_some h
    obtain ⟨hrest, hbalanced⟩ := takeArgumentText_spec rest
    refine ⟨?_, .literal hquote hbody hbalanced⟩
    exact hs.trans ((congrArg (_ ++ ·) hrest).trans (List.append_assoc _ _ _).symm)
  · split
    · next word rest hlen h =>
      obtain ⟨hs, inner, hinner, rfl⟩ := takeArguments?_spec s word _ h
      obtain ⟨hrest, hbalanced⟩ := takeArgumentText_spec rest
      refine ⟨?_, ?_⟩
      · exact hs.trans ((congrArg (_ ++ ·) hrest).trans (List.append_assoc _ _ _).symm)
      · simpa using Balanced.nested hinner hbalanced
    · next hliteral harguments =>
      match s with
      | [] => exact ⟨rfl, .empty⟩
      | c :: rest =>
        simp only
        split
        · exact ⟨rfl, .empty⟩
        · next hc =>
          obtain ⟨hrest, hbalanced⟩ := takeArgumentText_spec rest
          refine ⟨?_, .plain (by simpa using hc) hbalanced⟩
          rw [List.cons_append, ← hrest]
termination_by (s.length, 1)

end

/-- A literal is found at its opening quote. -/
theorem literalAt?_append {quote : Char} {body : List Char}
    (hquote : quote = '"' ∨ quote = '\'') (hbody : Quoted quote body) (rest : List Char) :
    ∃ hlen, literalAt? (quote :: body ++ rest) = some (quote :: body, ⟨rest, hlen⟩) := by
  have htake : takeLiteral? (quote :: body ++ rest) = some (quote :: body, rest) := by
    rw [List.cons_append, takeLiteral?, if_pos hquote,
      (literalBody_eq_some_iff (ne_backslash_of_quote hquote)).mpr ⟨rfl, hbody⟩]
    rfl
  refine ⟨length_of_takeLiteral? htake, ?_⟩
  unfold literalAt?
  split
  · next found after h =>
    cases htake.symm.trans h
    rfl
  · next h => cases htake.symm.trans h

/-- No literal is found at another character. -/
theorem literalAt?_eq_none {c : Char} {rest : List Char} (hc : ¬(c = '"' ∨ c = '\'')) :
    literalAt? (c :: rest) = none := by
  have htake : takeLiteral? (c :: rest) = none := by
    rw [takeLiteral?, if_neg hc]
  unfold literalAt?
  split
  · next h => cases htake.symm.trans h
  · rfl

/-- Balanced text is taken whole in front of a closing parenthesis. -/
theorem takeArgumentText_append {text : List Char} (htext : Balanced text) (rest : List Char) :
    ∃ hlen, takeArgumentText (text ++ ')' :: rest) = (text, ⟨')' :: rest, hlen⟩) := by
  induction htext generalizing rest with
  | empty =>
    rw [List.nil_append, takeArgumentText.eq_def, literalAt?_eq_none (by decide), takeArguments?]
    exact ⟨Nat.le_refl _, rfl⟩
  | @literal quote body text hquote hbody _ ih =>
    obtain ⟨_, hliteral⟩ := literalAt?_append hquote hbody (text ++ ')' :: rest)
    obtain ⟨_, ih⟩ := ih rest
    rw [List.append_assoc, takeArgumentText.eq_def, hliteral]
    simp only [ih]
    exact ⟨by simp; omega, trivial⟩
  | @nested inner text _ _ ihinner ih =>
    obtain ⟨_, ihinner⟩ := ihinner (text ++ ')' :: rest)
    obtain ⟨_, ih⟩ := ih rest
    have harguments : ∃ hlen, takeArguments? ('(' :: (inner ++ ')' :: (text ++ ')' :: rest))) =
        some ('(' :: inner ++ [')'], ⟨text ++ ')' :: rest, hlen⟩) := by
      rw [takeArguments?, ihinner]
      exact ⟨_, rfl⟩
    obtain ⟨_, harguments⟩ := harguments
    have hshape : '(' :: inner ++ ')' :: text ++ ')' :: rest =
        '(' :: (inner ++ ')' :: (text ++ ')' :: rest)) := by simp
    rw [hshape, takeArgumentText.eq_def, literalAt?_eq_none (by decide), harguments]
    simp only [ih]
    exact ⟨by simp; omega, by simp⟩
  | @plain c text hc _ ih =>
    obtain ⟨_, ih⟩ := ih rest
    have hquote : ¬(c = '"' ∨ c = '\'') := by
      rintro (rfl | rfl)
      · exact absurd hc (by decide)
      · exact absurd hc (by decide)
    have hopen : c ≠ '(' := by
      intro heq
      subst heq
      exact absurd hc (by decide)
    rw [List.cons_append, takeArgumentText.eq_def, literalAt?_eq_none hquote, takeArguments?,
      if_neg hopen]
    simp only [hc, ih]
    exact ⟨by simp; omega, by simp⟩

/-- Balanced text in parentheses is taken whole in front of any text. -/
theorem takeArguments?_append {text : List Char} (htext : IsArguments text) (rest : List Char) :
    ∃ hlen, takeArguments? (text ++ rest) = some (text, ⟨rest, hlen⟩) := by
  obtain ⟨inner, hinner, rfl⟩ := htext
  obtain ⟨_, htake⟩ := takeArgumentText_append hinner rest
  have hshape : '(' :: inner ++ [')'] ++ rest = '(' :: (inner ++ ')' :: rest) := by simp
  rw [hshape, takeArguments?, htake]
  exact ⟨_, rfl⟩

/-! ### Deciding legality

Only the arguments of annotations need a scanner for it; everything else is decided by its form. -/

/-- Balanced text in parentheses is what the scanner takes up to the end. -/
theorem isArguments_iff {text : List Char} :
    IsArguments text ↔ (takeArguments? text).any (·.2.1.isEmpty) = true := by
  constructor
  · intro h
    have htake := takeArguments?_append h []
    rw [List.append_nil] at htake
    obtain ⟨_, htake⟩ := htake
    simp [htake]
  · intro h
    cases htake : takeArguments? text with
    | none => simp [htake] at h
    | some found =>
      obtain ⟨word, rest⟩ := found
      obtain ⟨htext, hword⟩ := takeArguments?_spec text word rest htake
      have hrest : rest.1 = [] := by simpa [htake] using h
      rw [hrest, List.append_nil] at htext
      rw [htext]
      exact hword

instance (text : List Char) : Decidable (IsArguments text) := decidable_of_iff' _ isArguments_iff

instance (name : Dotted) : Decidable name.IsLegal := inferInstanceAs (Decidable (_ ∧ _))

instance : (rest : List Char) → Decidable (EndsName rest)
  | [] => .isTrue (by simp [EndsName])
  | c :: _ => decidable_of_iff (isIdentifierPart c = false) (by simp [EndsName])

instance (body : List Char) : Decidable (∀ c ∈ body, isLineEnd c = false) := List.decidableBAll _ _

instance : (piece : Skipped) → (rest : List Char) → Decidable (piece.IsComplete rest)
  | .blank c, _ => inferInstanceAs (Decidable (isBlank c = true))
  | .lineComment body, [] =>
    decidable_of_iff (∀ c ∈ body, isLineEnd c = false) (by simp [Skipped.IsComplete])
  | .lineComment body, c :: _ =>
    decidable_of_iff ((∀ c ∈ body, isLineEnd c = false) ∧ isLineEnd c = true)
      (by simp [Skipped.IsComplete])
  | .blockComment body, _ => inferInstanceAs (Decidable (¬ ['*', '/'] <:+: body))

instance : (piece : Piece) → (rest : List Char) → Decidable (piece.IsLegal rest)
  | .skipped piece, rest => inferInstanceAs (Decidable (piece.IsComplete rest))
  | .fixed _, _ => .isTrue trivial
  | .identifier name, rest => inferInstanceAs (Decidable (IsIdentifier name ∧ EndsName rest))
  | .dotted name, rest => inferInstanceAs (Decidable (name.IsLegal ∧ EndsName rest))
  | .modifier word, rest => inferInstanceAs (Decidable (word ∈ modifierWords ∧ EndsName rest))
  | .arguments text, _ => inferInstanceAs (Decidable (IsArguments text))

instance decidableLegal : (pieces : List Piece) → (rest : List Char) → Decidable (Legal pieces rest)
  | [], _ => .isTrue trivial
  | piece :: pieces, rest =>
    have := decidableLegal pieces rest
    inferInstanceAs (Decidable (piece.IsLegal (textOf pieces ++ rest) ∧ Legal pieces rest))

instance (document : Document) : Decidable document.WellFormed :=
  decidable_of_iff (Legal document.pieces [] ∧
      ∀ field ∈ document.fields, field.type.name.first ∉ modifierWords)
    ⟨fun h => ⟨h.1, h.2⟩, fun h => ⟨h.legal, h.typeNames⟩⟩

end PreferenceInjector.Declaration
