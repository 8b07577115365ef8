import PreferenceInjector.Derive.Expansion
import PreferenceInjector.Proofs.TakenValues

/-!
# How tokens are spelled

The names among the tokens of a text are words, plain or behind `r#`, also those in brackets; a
lifetime is a word behind a quote, and a mark is a character of an operator. Only literals hold
anything else. So a name holds none of the characters that separate or enclose names in a text.
-/

namespace PreferenceInjector

namespace Derive

open Taken

/-- An identifier or a keyword, plain or behind `r#`. -/
def IsWord (name : String) : Prop :=
  isIdentifier name.toList = true ∨
    ∃ plain : String, name = "r#" ++ plain ∧ isIdentifier plain.toList = true ∧
      plain ∉ unescapable

/-- A token that is spelled as its kind requires, and so is all that it holds. -/
inductive Token.IsLexed : Token → Prop
  | name {text : String} (h : IsWord text) : IsLexed (.name text)
  | lifetime {text : String} (h : IsWord text) : IsLexed (.lifetime ("'" ++ text))
  | literal (text : String) : IsLexed (.literal text)
  | mark {character : Char} (h : character ∈ markCharacters) (joint : Bool) :
      IsLexed (.mark character joint)
  | group (bracket : Bracket) {content : List Token} (h : ∀ token ∈ content, token.IsLexed) :
      IsLexed (.group bracket content)

/-- A token that is spelled as its kind requires, whatever it holds if it is a group. -/
inductive Token.IsSpelled : Token → Prop
  | name {text : String} (h : IsWord text) : IsSpelled (.name text)
  | lifetime {text : String} (h : IsWord text) : IsSpelled (.lifetime ("'" ++ text))
  | literal (text : String) : IsSpelled (.literal text)
  | mark {character : Char} (h : character ∈ markCharacters) (joint : Bool) :
      IsSpelled (.mark character joint)
  | group (bracket : Bracket) (content : List Token) : IsSpelled (.group bracket content)

/-- A token of a text is spelled. -/
theorem Token.IsLexed.isSpelled {token : Token} (h : token.IsLexed) : token.IsSpelled := by
  cases h with
  | name h => exact .name h
  | lifetime h => exact .lifetime h
  | literal text => exact .literal text
  | mark h joint => exact .mark h joint
  | group bracket => exact .group bracket _

/-! ### Words -/

/-- The letters of a word are an identifier. -/
theorem gives_takeWord (s : List Char) : (takeWord s).Gives (isIdentifier · = true) := by
  refine (gives_one startsName s).finish ?_
  intro c r _ hc
  have hrun : ∀ d ∈ (run continuesName r).1, continuesName d = true :=
    forall_mem_many (gives_one continuesName) r
  simpa [Kept.finish, Kept.done, isIdentifier, hc] using hrun

/-- A name is a word. -/
theorem gives_takeName (s : List Char) : (takeName s).Gives IsWord := by
  have hraw : ∀ letters, isIdentifier letters = true → ∀ name ∈
      (if unescapable.contains (String.ofList letters) then none
        else some ("r#" ++ String.ofList letters)), IsWord name := by
    intro letters hletters name hname
    split at hname
    · cases hname
    · next hfree =>
      cases hname
      exact .inr ⟨_, rfl, by simpa using hletters, by simpa using hfree⟩
  refine Gives.or (Gives.andThen (P := fun _ => True) (fun _ _ => trivial) ?_) ?_
  · intro _ r _ _
    exact (gives_takeWord r).asMaybe hraw
  · split
    · exact fun _ h => nomatch h
    · exact (gives_takeWord s).as fun letters h => .inl (by simpa using h)

/-- An identifier can also go on with what it can start with. -/
theorem continuesName_of_startsName {c : Char} (h : startsName c = true) :
    continuesName c = true := by
  rw [startsName, Unicode.isIdStart, Bool.or_eq_true, beq_iff_eq] at h
  rw [continuesName, Unicode.isIdContinue]
  rcases h with rfl | h
  · rfl
  · split at h
    · next hascii => simp [hascii, Char.isAlphanum, h]
    · next hascii => rw [if_neg hascii, h, Bool.true_or]

/-- Every character of an identifier is one with which a name can go on. -/
theorem continuesName_of_mem {name : List Char} (h : isIdentifier name = true) {c : Char}
    (hc : c ∈ name) : continuesName c = true := by
  cases name with
  | nil => cases hc
  | cons first rest =>
    rw [isIdentifier, Bool.and_eq_true, List.all_eq_true] at h
    rcases List.mem_cons.mp hc with rfl | hc
    · exact continuesName_of_startsName h.1
    · exact h.2 c hc

/-- Besides those of an identifier, only a hash sign stands in a word. -/
theorem IsWord.continuesName_of_mem {name : String} (h : IsWord name) {c : Char}
    (hc : c ∈ name.toList) : continuesName c = true ∨ c = '#' := by
  rcases h with h | ⟨plain, rfl, hplain, -⟩
  · exact .inl (Derive.continuesName_of_mem h hc)
  · rw [String.toList_append, List.mem_append] at hc
    rcases hc with hc | hc
    · obtain rfl | rfl : c = 'r' ∨ c = '#' := by simpa using hc
      · exact .inl (by decide)
      · exact .inr rfl
    · exact .inl (Derive.continuesName_of_mem hplain hc)

/-- A word is not empty. -/
theorem IsWord.ne_empty {name : String} (h : IsWord name) : name ≠ "" := by
  rintro rfl
  rcases h with h | ⟨plain, hplain, -⟩
  · cases h
  · simp [String.ext_iff] at hplain

/-! ### Tokens -/

/-- A leaf whose token, if it is one, is spelled as its kind requires. -/
def Leaf.IsLexed : Leaf → Prop
  | .token found => found.IsLexed
  | _ => True

/-- A lifetime is a word behind a quote. -/
theorem gives_takeLifetime (s : List Char) : (takeLifetime s).Gives Token.IsLexed := by
  refine Gives.andThen (P := fun _ => True) (fun _ _ => trivial) ?_
  intro _ r _ _ found hfound
  obtain ⟨⟨name, rest⟩, hname, hif⟩ := Option.bind_eq_some_iff.mp hfound
  obtain ⟨-, heq⟩ := Option.ite_none_left_eq_some.mp hif
  cases heq
  exact .lifetime (gives_takeName r _ hname)

/-- A mark is a character of an operator. -/
theorem gives_takeMark (s : List Char) : (takeMark s).Gives Token.IsLexed := by
  intro found hfound
  cases s with
  | nil => simp [takeMark, startsMark] at hfound
  | cons c rest =>
    rw [takeMark] at hfound
    split at hfound
    · next hstarts =>
      simp only [startsMark, List.head?_cons, Option.any_some, Bool.and_eq_true] at hstarts
      obtain ⟨⟨d, after⟩, hd, rfl⟩ := Option.map_eq_some_iff.mp hfound
      rw [one] at hd
      split at hd
      · cases hd
        exact .mark (by simpa using hstarts.1) _
      · cases hd
    · cases hfound

/-- The attribute of a documentation comment holds a name, a mark and a literal. -/
theorem isLexed_documentationTokens (inner : Bool) (text : List Char) :
    ∀ token ∈ documentationTokens inner text, token.IsLexed := by
  have hgroup : ∀ value, ∀ token ∈ [Token.name "doc", .mark '=' false, .literal value],
      token.IsLexed := by
    intro value token htoken
    rcases List.mem_cons.mp htoken with rfl | htoken
    · exact .name (.inl (by decide))
    rcases List.mem_cons.mp htoken with rfl | htoken
    · exact .mark (by decide) _
    rcases List.mem_cons.mp htoken with rfl | htoken
    · exact .literal _
    · cases htoken
  intro token htoken
  simp only [documentationTokens, List.cons_append, List.nil_append, List.mem_cons,
    List.mem_append, List.not_mem_nil, or_false] at htoken
  rcases htoken with rfl | hmark | rfl
  · exact .mark (by decide) _
  · split at hmark
    · rw [List.mem_singleton.mp hmark]
      exact .mark (by decide) _
    · cases hmark
  · exact .group _ (hgroup _)

/-- The leaves of a text are spelled as their kinds require. -/
theorem gives_takeLeaves (s : List Char) :
    (takeLeaves s).Gives (∀ leaf ∈ ·, leaf.IsLexed) := by
  have hsingle : ∀ leaf : Leaf, leaf.IsLexed → ∀ other ∈ [leaf], other.IsLexed := by
    intro leaf h other hother
    rwa [List.mem_singleton.mp hother]
  rw [takeLeaves]
  split
  · refine Gives.asMaybe (P := fun _ => True) (fun _ _ => trivial) ?_
    intro text _ leaves hleaves
    split at hleaves
    · cases hleaves
      intro leaf hleaf
      obtain ⟨token, htoken, rfl⟩ := List.mem_map.mp hleaf
      exact isLexed_documentationTokens _ _ token htoken
    · cases hleaves
  · refine Gives.or (Gives.asMaybe (gives_one _ s) ?_) (Gives.or ?_ (Gives.or ?_ (Gives.or ?_ ?_)))
    · intro c _ leaves hleaves
      rcases Option.or_eq_some_iff.mp hleaves with h | ⟨-, h⟩
      all_goals
        obtain ⟨bracket, -, rfl⟩ := Option.map_eq_some_iff.mp h
        exact hsingle _ trivial
    · exact Gives.as (P := fun _ => True) (fun _ _ => trivial)
        fun text _ => hsingle (.token _) (.literal text)
    · exact (gives_takeLifetime s).as fun _ h => hsingle (.token _) h
    · exact (gives_takeMark s).as fun _ h => hsingle (.token _) h
    · split
      · exact fun _ h => nomatch h
      · exact (gives_takeName s).as fun _ h => hsingle (.token _) (.name h)

/-- Brackets enclose tokens without changing any of them. -/
theorem isLexed_of_nest? {before : List Token} {outer : List (Bracket × List Token)}
    {leaves : List Leaf} {tokens : List Token} (h : nest? before outer leaves = some tokens)
    (hbefore : ∀ token ∈ before, token.IsLexed)
    (houter : ∀ level ∈ outer, ∀ token ∈ level.2, token.IsLexed)
    (hleaves : ∀ leaf ∈ leaves, leaf.IsLexed) : ∀ token ∈ tokens, token.IsLexed := by
  fun_induction nest? before outer leaves with
  | case1 before outer hempty =>
    cases h
    simpa using hbefore
  | case2 => cases h
  | case3 before outer token rest ih =>
    obtain ⟨htoken, hrest⟩ := List.forall_mem_cons.mp hleaves
    exact ih h (List.forall_mem_cons.mpr ⟨htoken, hbefore⟩) houter hrest
  | case4 before outer bracket rest ih =>
    exact ih h (by simp) (List.forall_mem_cons.mpr ⟨hbefore, houter⟩)
      (List.forall_mem_cons.mp hleaves).2
  | case5 => cases h
  | case6 before rest bracket around further ih =>
    obtain ⟨haround, hfurther⟩ := List.forall_mem_cons.mp houter
    have hgroup : (Token.group bracket before.reverse).IsLexed := .group _ (by simpa using hbefore)
    exact ih h (List.forall_mem_cons.mpr ⟨hgroup, haround⟩) hfurther
      (List.forall_mem_cons.mp hleaves).2
  | case7 => cases h

/-- The tokens of a text are spelled as their kinds require. -/
theorem isLexed_of_tokensOf? {text : List Char} {tokens : List Token}
    (h : tokensOf? text = some tokens) : ∀ token ∈ tokens, token.IsLexed := by
  obtain ⟨leaves, hleaves, hnest⟩ := Option.bind_eq_some_iff.mp h
  refine isLexed_of_nest? hnest (by simp) (by simp) ?_
  obtain ⟨-, heq⟩ := Option.ite_none_right_eq_some.mp hleaves
  cases heq
  intro leaf hleaf
  obtain ⟨found, hfound, hleaf⟩ := List.mem_flatten.mp hleaf
  rw [Kept.finish] at hfound
  have hlexed : ∀ other ∈ found, other.IsLexed :=
    forall_mem_many (P := fun leaves => ∀ leaf ∈ leaves, leaf.IsLexed)
      (fun t => (gives_takeLeaves t).finish fun _ _ _ h => h) _ found hfound
  exact hlexed leaf hleaf

end Derive

end PreferenceInjector
