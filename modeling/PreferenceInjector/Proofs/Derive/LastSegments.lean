import PreferenceInjector.Proofs.Derive.WrittenTypes
import PreferenceInjector.Proofs.Generation.SimpleNames

/-!
# The last segments of types

A field resolves by the simple name of the text that stands for its type. For a plain path this is
the name of its last segment. A type of any other form has no simple name that could name a class:
such a type is a keyword, or something other than a name stands at its end or before its last name.
-/

namespace PreferenceInjector.Derive

open Declaration

/-- The name of the last segment of a path. -/
def Path.lastName (path : Path) : String := path.names.getLast?.getD ""

/-- The type is a plain path whose last segment has the name. -/
def FieldType.IsPathTo (type : FieldType) (name : String) : Prop :=
  ∃ path, type = .path path ∧ path.lastName = name

/-- Letters, digits, low lines and hash signs, the last of which is no hash sign. -/
structure IsNameLike (name : String) : Prop where
  parts : ∀ c ∈ name.toList, continuesName c = true ∨ c = '#'
  last : ∃ c, name.toList.getLast? = some c ∧ continuesName c = true

/-- The type has the name as its simple name exactly when it is a plain path to it. -/
def FieldType.ResolvesByLastName (type : FieldType) : Prop :=
  ∀ name : String, IsNameLike name → isKeyword name = false →
    (simpleName type.declared = name ↔ type.IsPathTo name)

/-- A character that cannot stand in a name stands in the text, and no dot behind it; if it is a dot
itself or a hash sign, nothing stands behind it. -/
def EndsUnnamed (text : List Char) : Prop :=
  ∃ before c after, text = before ++ c :: after ∧ continuesName c = false ∧ '.' ∉ after ∧
    (c = '.' ∨ c = '#' → after = [])

/-! ### Texts -/

/-- No dot stands in a word. -/
theorem IsWord.dot_notMem {name : String} (h : IsWord name) : '.' ∉ name.toList := by
  intro hdot
  rcases h.continuesName_of_mem hdot with hname | hhash
  · exact absurd hname (by decide)
  · exact absurd hhash (by decide)

/-- A word is a name with at most a hash sign in it. -/
theorem IsWord.isNameLike {name : String} (h : IsWord name) : IsNameLike name := by
  have hlast {plain : String} (hplain : isIdentifier plain.toList = true) :
      ∃ c, plain.toList.getLast? = some c ∧ continuesName c = true := by
    have hne : plain.toList ≠ [] := by
      intro hnil
      rw [hnil] at hplain
      cases hplain
    exact ⟨_, List.getLast?_eq_some_getLast hne,
      Derive.continuesName_of_mem hplain (List.getLast_mem hne)⟩
  refine ⟨fun c hc => h.continuesName_of_mem hc, ?_⟩
  rcases h with h | ⟨plain, rfl, hplain, -⟩
  · exact hlast h
  · obtain ⟨c, hc, hname⟩ := hlast hplain
    exact ⟨c, by rw [String.toList_append, List.getLast?_append, hc, Option.some_or], hname⟩

/-- Letters before a name change neither its parts nor its end. -/
theorem IsNameLike.append {stem name : String} (h : IsNameLike name)
    (hstem : ∀ c ∈ stem.toList, continuesName c = true) : IsNameLike (stem ++ name) := by
  obtain ⟨c, hc, hname⟩ := h.last
  refine ⟨fun d hd => ?_, c, by rw [String.toList_append, List.getLast?_append, hc, Option.some_or],
    hname⟩
  rw [String.toList_append, List.mem_append] at hd
  exact hd.elim (fun hd => .inl (hstem d hd)) (h.parts d)

/-- What is written in front of a text does not change how it ends. -/
theorem EndsUnnamed.append {text : List Char} (h : EndsUnnamed text) (front : List Char) :
    EndsUnnamed (front ++ text) := by
  obtain ⟨before, c, after, rfl, hc⟩ := h
  exact ⟨front ++ before, c, after, by simp, hc⟩

/-- The simple name reaches back behind a character that no dot follows. -/
theorem exists_simpleName_eq {text : String} {before after : List Char} {c : Char}
    (htext : text.toList = before ++ c :: after) (hafter : '.' ∉ after) (hc : c ≠ '.') :
    ∃ front, (simpleName text).toList = front ++ c :: after := by
  have hdots : ∀ d ∈ after.reverse, (d != '.') = true := by
    intro d hd
    rw [bne_iff_ne]
    rintro rfl
    exact hafter (List.mem_reverse.mp hd)
  refine ⟨(before.reverse.takeWhile (· != '.')).reverse, ?_⟩
  rw [simpleName, String.toList_ofList, htext, List.reverse_append, List.reverse_cons,
    List.append_assoc, List.takeWhile_append_of_pos hdots, List.singleton_append,
    List.takeWhile_cons_of_pos (by simpa using hc)]
  simp

/-- The simple name of such a text is not like a name. -/
theorem EndsUnnamed.not_isNameLike {text : String} (h : EndsUnnamed text.toList) :
    ¬ IsNameLike (simpleName text) := by
  obtain ⟨before, c, after, htext, hc, hdot, hend⟩ := h
  intro hname
  by_cases hcdot : c = '.'
  · subst hcdot
    obtain ⟨last, hlast, -⟩ := hname.last
    rw [← String.ofList_toList (s := text), htext, simpleName_append_dot _ hdot,
      hend (.inl rfl)] at hlast
    cases hlast
  · obtain ⟨front, hfront⟩ := exists_simpleName_eq htext hdot hcdot
    rcases hname.parts c (by simp [hfront]) with hpart | rfl
    · rw [hc] at hpart
      cases hpart
    · obtain ⟨last, hlast, hpart⟩ := hname.last
      rw [hfront, hend (.inr rfl), List.getLast?_concat] at hlast
      cases hlast
      rw [hc] at hpart
      cases hpart

/-- The text of brackets ends in the closing one. -/
theorem endsUnnamed_enclose (bracket : Bracket) (content : String) :
    EndsUnnamed (bracket.enclose content).toList := by
  have hclosing (text : String) (c : Char) (hc : continuesName c = false) :
      EndsUnnamed (text ++ c.toString).toList :=
    ⟨text.toList, c, [], by simp, hc, by simp, fun _ => rfl⟩
  cases bracket with
  | round => exact hclosing ("(" ++ content) ')' (by decide)
  | square => exact hclosing ("[" ++ content) ']' (by decide)
  | curly =>
    rw [Bracket.enclose]
    split
    · exact hclosing "\x7b " '\x7d' (by decide)
    · have hsplit : " \x7d" = " " ++ "\x7d" := rfl
      rw [hsplit, ← String.append_assoc]
      exact hclosing ("\x7b " ++ content ++ " ") '\x7d' (by decide)

/-- The tokens are a single name, or their text ends unnamed. -/
def IsNameOrUnnamed (tokens : List Token) : Prop :=
  (∃ text, tokens = [.name text] ∧ IsWord text) ∨ EndsUnnamed (textOf tokens).toList

variable {token next : Token} {rest tokens : List Token}

/-- What stands behind a token is written as well. -/
theorem IsWritten.tail (h : IsWritten (token :: rest)) : IsWritten rest := by
  cases h <;> assumption

/-- A single token that is no literal. -/
theorem IsWritten.isNameOrUnnamed_singleton (h : IsWritten [token])
    (hliteral : ∀ text, token ≠ .literal text) : IsNameOrUnnamed [token] := by
  have hmarks : markCharacters.all (!continuesName ·) = true := by decide
  have hquote : ¬ ('\'' = '.' ∨ '\'' = '#') := by decide
  cases h with
  | @name text _ hword => exact .inl ⟨text, rfl, hword⟩
  | @lifetime text _ hword =>
    exact .inr ⟨[], '\'', text.toList, by simp [textOf, Token.text], by decide, hword.dot_notMem,
      fun h => (hquote h).elim⟩
  | literal text => exact (hliteral text rfl).elim
  | group bracket content => exact .inr (endsUnnamed_enclose bracket (textOf content))
  | @mark c _ hmark =>
    have hc : continuesName c = false := by simpa using List.all_eq_true.mp hmarks c hmark
    exact .inr ⟨[], c, [], by simp [textOf, Token.text], hc, by simp, fun _ => rfl⟩

/-- A blank stands behind the first token, unless it is part of an operator. -/
theorem IsWritten.endsUnnamed_cons (h : IsWritten (token :: next :: rest))
    (hrest : IsNameOrUnnamed (next :: rest)) :
    EndsUnnamed (textOf (token :: next :: rest)).toList := by
  cases hjoint : token.isJoint with
  | false =>
    have htext : (textOf (token :: next :: rest)).toList =
        token.text.toList ++ ' ' :: (textOf (next :: rest)).toList := by
      rw [textOf, hjoint]
      simp
    have hblank : ¬ (' ' = '.' ∨ ' ' = '#') := by decide
    rw [htext]
    rcases hrest with ⟨text, hname, hword⟩ | hrest
    · rw [hname]
      exact ⟨_, ' ', _, rfl, by decide, hword.dot_notMem, fun h => (hblank h).elim⟩
    · exact List.append_cons _ _ _ ▸ hrest.append _
  | true =>
    have htext : (textOf (token :: next :: rest)).toList =
        token.text.toList ++ (textOf (next :: rest)).toList := by
      rw [textOf, hjoint]
      simp
    rw [htext]
    cases h with
    | joint => exact (hrest.resolve_left (by simp)).append _
    | _ => cases hjoint

/-- Written tokens that do not end in a literal are a single name, or their text ends unnamed. -/
theorem IsWritten.isNameOrUnnamed (h : IsWritten tokens) (hne : tokens ≠ [])
    (hlast : ∀ text, tokens.getLast? ≠ some (.literal text)) : IsNameOrUnnamed tokens := by
  induction tokens with
  | nil => exact (hne rfl).elim
  | cons token rest ih =>
    cases rest with
    | nil => exact h.isNameOrUnnamed_singleton fun text htext => hlast text (by simp [htext])
    | cons next rest =>
      exact .inr (h.endsUnnamed_cons (ih h.tail (List.cons_ne_nil _ _) hlast))

/-! ### Paths -/

/-- Reads the arguments of a segment and leaves some of the tokens. -/
def LeavesTokens (arguments : ArgumentReader) : Prop :=
  ∀ ⦃tokens⦄, (∀ token ∈ tokens, token.IsSpelled) → ∀ ⦃found rest⦄,
    arguments tokens = .ok (found, rest) → rest ⊆ tokens

/-- Reading all kinds of arguments leaves a part of the tokens. -/
theorem leavesTokens_allArguments : LeavesTokens allArguments := by
  intro tokens htokens found rest h
  rw [allArguments] at h
  split at h
  · next hread =>
    cases h
    exact (gives_segmentArguments readsTypes_read htokens hread).1
  · cases h

/-- Reading arguments in angle brackets leaves a part of the tokens. -/
theorem leavesTokens_angledArguments : LeavesTokens angledArguments := by
  intro tokens htokens found rest h
  rw [angledArguments] at h
  split at h
  · split at h
    · next hread =>
      cases h
      exact (readsTypes_read.arguments htokens hread).1
    · cases h
  · cases h
    exact List.Subset.refl _

variable {arguments : ArgumentReader} {segments : List Segment} {path : Path}

/-- The name of a segment that is read is a word. -/
theorem isWord_of_readSegment (harguments : LeavesTokens arguments)
    (htokens : ∀ token ∈ tokens, token.IsSpelled) {segment : Segment}
    (h : readSegment arguments tokens = .ok (segment, rest)) :
    IsWord segment.name ∧ rest ⊆ tokens := by
  unfold readSegment at h
  split at h
  · cases h
  · next name behind =>
    obtain ⟨htoken, hbehind⟩ := List.forall_mem_cons.mp htokens
    cases htoken with
    | name hword =>
      split at h
      · cases h
        exact ⟨hword, List.subset_cons_self _ _⟩
      · split at h
        · cases h
        · obtain ⟨⟨found, last⟩, hfound, heq⟩ := except_map_eq_ok.mp h
          cases heq
          exact ⟨hword, List.subset_cons_of_subset _ (harguments hbehind hfound)⟩
  · cases h

/-- The double colons before a further segment are dropped. -/
theorem subset_of_nextSegment? (h : nextSegment? tokens = some rest) : rest ⊆ tokens := by
  rw [nextSegment?] at h
  split at h
  · cases h
  · exact (Reader.mem_of_dropMarks? h).1

/-- Without a limit left, one segment is read. -/
theorem readSegments_zero (tokens : List Token) :
    readSegments arguments 0 tokens =
      (readSegment arguments tokens).map fun (segment, rest) => ([segment], rest) := by
  delta readSegments
  change (readSegment arguments tokens).bind _ = _
  cases readSegment arguments tokens <;> rfl

/-- A segment is read, and more of them if double colons follow. -/
theorem readSegments_succ (limit : Nat) (tokens : List Token) :
    readSegments arguments (limit + 1) tokens =
      (readSegment arguments tokens).bind fun (segment, rest) =>
        match nextSegment? rest with
        | some next => (readSegments arguments limit next).map fun (more, last) =>
            (segment :: more, last)
        | none => .ok ([segment], rest) := by
  delta readSegments
  change (readSegment arguments tokens).bind _ = _
  cases readSegment arguments tokens with
  | error => rfl
  | ok found =>
    dsimp only [Except.bind]
    cases nextSegment? found.2 <;> rfl

/-- The segments that are read are named by words, and there is one at least. -/
theorem isWord_of_readSegments (harguments : LeavesTokens arguments) {limit : Nat}
    (htokens : ∀ token ∈ tokens, token.IsSpelled)
    (h : readSegments arguments limit tokens = .ok (segments, rest)) :
    segments ≠ [] ∧ ∀ segment ∈ segments, IsWord segment.name := by
  induction limit generalizing tokens segments rest with
  | zero =>
    rw [readSegments_zero, except_map_eq_ok] at h
    obtain ⟨⟨segment, behind⟩, hsegment, heq⟩ := h
    cases heq
    have hword := (isWord_of_readSegment harguments htokens hsegment).1
    exact ⟨List.cons_ne_nil _ _, by simpa using hword⟩
  | succ limit ih =>
    rw [readSegments_succ] at h
    obtain ⟨⟨segment, behind⟩, hsegment, h⟩ := except_bind_eq_ok.mp h
    obtain ⟨hword, hbehind⟩ := isWord_of_readSegment harguments htokens hsegment
    dsimp only at h
    split at h
    · next next hnext =>
      obtain ⟨⟨more, last⟩, hmore, heq⟩ := except_map_eq_ok.mp h
      cases heq
      have hsubset := List.Subset.trans (subset_of_nextSegment? hnext) hbehind
      obtain ⟨-, hwords⟩ := ih (fun token htoken => htokens token (hsubset htoken)) hmore
      exact ⟨List.cons_ne_nil _ _, List.forall_mem_cons.mpr ⟨hword, hwords⟩⟩
    · cases h
      exact ⟨List.cons_ne_nil _ _, by simpa using hword⟩

/-- A path is read to the end of the tokens. -/
theorem pathOf_eq_ok : pathOf arguments tokens = .ok path ↔
    readPath arguments tokens = .ok (path, []) := by
  rw [pathOf, except_bind_eq_ok]
  constructor
  · intro h
    obtain ⟨⟨found, behind⟩, hread, h⟩ := h
    cases behind with
    | nil =>
      cases h
      exact hread
    | cons => cases h
  · intro h
    exact ⟨_, h, rfl⟩

/-- A path that is read has segments, and their names are words. -/
theorem isWord_of_pathOf (harguments : LeavesTokens arguments)
    (htokens : ∀ token ∈ tokens, token.IsSpelled) (h : pathOf arguments tokens = .ok path) :
    path.names ≠ [] ∧ ∀ name ∈ path.names, IsWord name := by
  rw [pathOf_eq_ok, readPath, except_map_eq_ok] at h
  obtain ⟨⟨segments, last⟩, hsegments, heq⟩ := h
  cases heq
  have hstart : (match Reader.dropMarks? [':', ':'] tokens with
      | some rest => (true, rest)
      | none => (false, tokens)).2 ⊆ tokens := by
    split
    · next rest hrest => exact (Reader.mem_of_dropMarks? hrest).1
    · exact List.Subset.refl _
  obtain ⟨hne, hwords⟩ :=
    isWord_of_readSegments harguments (fun token htoken => htokens token (hstart htoken)) hsegments
  exact ⟨by simpa [Path.names] using hne, by simpa [Path.names] using hwords⟩

/-! ### Types of fields -/

/-- Tokens that are written are spelled. -/
theorem IsWritten.isSpelled (h : IsWritten tokens) : ∀ token ∈ tokens, token.IsSpelled := by
  induction h with
  | nil => simp
  | name h _ ih => exact List.forall_mem_cons.mpr ⟨.name h, ih⟩
  | lifetime h _ ih => exact List.forall_mem_cons.mpr ⟨.lifetime h, ih⟩
  | literal text _ ih => exact List.forall_mem_cons.mpr ⟨.literal text, ih⟩
  | group bracket content _ ih => exact List.forall_mem_cons.mpr ⟨.group bracket content, ih⟩
  | mark h _ ih => exact List.forall_mem_cons.mpr ⟨.mark h false, ih⟩
  | joint h _ ih => exact List.forall_mem_cons.mpr ⟨.mark h true, ih⟩

/-- The simple name of names with dots between them is the last of them. -/
theorem simpleName_intercalate {names : List String} (hne : names ≠ [])
    (h : ∀ name ∈ names, '.' ∉ name.toList) :
    simpleName (".".intercalate names) = names.getLast?.getD "" := by
  induction names with
  | nil => exact (hne rfl).elim
  | cons name names ih =>
    obtain ⟨hname, hnames⟩ := List.forall_mem_cons.mp h
    cases names with
    | nil =>
      rw [← endsInName_iff]
      exact ⟨hname, .inl (by simp)⟩
    | cons second more =>
      rw [String.intercalate_cons_cons, simpleName_qualified, ih (List.cons_ne_nil _ _) hnames]
      simp

/-- A single name that is no keyword is a plain path. -/
theorem exists_pathOf_name {text : String} (h : isKeyword text = false) :
    ∃ path, pathOf allArguments [.name text] = .ok path := by
  have hsegment : readSegment allArguments [.name text] = .ok (⟨text, []⟩, []) := by
    have hnone : allArguments [] = .ok ([], []) := rfl
    rw [readSegment, hnone, h, Bool.and_false]
    split <;> rfl
  refine ⟨⟨false, [⟨text, []⟩]⟩, ?_⟩
  rw [pathOf_eq_ok]
  change (readSegments allArguments (0 + 1) [.name text]).map _ = _
  rw [readSegments_succ, hsegment]
  rfl

/-- The type of a field resolves by its last segment. -/
theorem resolvesByLastName_ofTokens (h : IsClosed tokens) :
    (FieldType.ofTokens tokens).ResolvesByLastName := by
  intro name hname hkeyword
  rw [FieldType.ofTokens]
  cases hpath : pathOf allArguments tokens with
  | ok path =>
    obtain ⟨hne, hwords⟩ := isWord_of_pathOf leavesTokens_allArguments h.written.isSpelled hpath
    have hsimple := simpleName_intercalate hne fun name hname => (hwords name hname).dot_notMem
    simp only [FieldType.declared, FieldType.IsPathTo, FieldType.path.injEq, exists_eq_left',
      hsimple, Path.lastName]
  | error flaw =>
    simp only [FieldType.declared, FieldType.IsPathTo, reduceCtorEq, false_and, exists_false,
      iff_false]
    rintro rfl
    by_cases hne : tokens = []
    · subst hne
      obtain ⟨last, hlast, -⟩ := hname.last
      cases hlast
    rcases h.written.isNameOrUnnamed hne h.last with ⟨text, rfl, hword⟩ | hunnamed
    · -- A name that is no path is a keyword, and its text is its simple name.
      have hsimple : simpleName (textOf [.name text]) = text :=
        endsInName_iff.mp ⟨hword.dot_notMem, .inl rfl⟩
      rw [hsimple] at hkeyword
      obtain ⟨path, hfound⟩ := exists_pathOf_name hkeyword
      rw [hfound] at hpath
      cases hpath
    · exact hunnamed.not_isNameLike hname

end PreferenceInjector.Derive
