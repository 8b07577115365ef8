import PreferenceInjector.Proofs.Derive.Spelling

/-!
# What readers give

A property of what is read is carried through the combinators of readers: it holds of the value
of a composed reader if it holds of the values of the parts. For phrases the property has to be
kept when tokens are written one after another.
-/

namespace PreferenceInjector.Derive

namespace Reader

variable {α β : Type} {P : α → Prop} {R : β → Prop} {Q : Token → Prop} {read : Reader α}

/-- What is read off tokens with the property `Q` has the property `P`, and what is left is among
these tokens. -/
def Gives (P : α → Prop) (read : Reader α) (Q : Token → Prop := Token.IsSpelled) : Prop :=
  ∀ ⦃tokens⦄, (∀ token ∈ tokens, Q token) → ∀ ⦃a rest⦄, read tokens = some (a, rest) →
    rest ⊆ tokens ∧ P a

/-- What is read has every property that follows from one that it has. -/
theorem Gives.mono {P' : α → Prop} (h : read.Gives P Q) (himp : ∀ a, P a → P' a) :
    read.Gives P' Q := by
  intro tokens htokens a rest hread
  obtain ⟨hrest, ha⟩ := h htokens hread
  exact ⟨hrest, himp a ha⟩

/-- What is read off spelled tokens can be read off those of a text. -/
theorem Gives.of_lexed (h : read.Gives P) : read.Gives P Token.IsLexed :=
  fun _ htokens _ _ hread => h (fun token htoken => (htokens token htoken).isSpelled) hread

/-- A value that is given without reading has its properties, and leaves all tokens. -/
theorem gives_pure {a : α} (h : P a) : Gives P (pure a) Q := by
  intro tokens _ b rest hread
  cases hread
  exact ⟨List.Subset.refl _, h⟩

/-- A reader that always fails gives nothing, so all it gives has any property. -/
theorem gives_failure : Gives P failure Q := by
  intro tokens _ a rest hread
  cases hread

/-- A reader after another one gives what it gives behind values with the property of the first. -/
theorem Gives.bind (h : read.Gives P Q) {next : α → Reader β}
    (hnext : ∀ a, P a → (next a).Gives R Q) : (read >>= next).Gives R Q := by
  intro tokens htokens b rest hread
  obtain ⟨⟨a, middle⟩, ha, hb⟩ := Option.bind_eq_some_iff.mp hread
  obtain ⟨hmiddle, ha⟩ := h htokens ha
  obtain ⟨hrest, hb⟩ := hnext a ha (fun token htoken => htokens token (hmiddle htoken)) hb
  exact ⟨List.Subset.trans hrest hmiddle, hb⟩

/-- What a choice reads is read by one of the two readers. -/
theorem orElse_eq_some {other : Reader α} {tokens rest : List Token} {a : α}
    (h : (read <|> other : Reader α) tokens = some (a, rest)) :
    read tokens = some (a, rest) ∨ other tokens = some (a, rest) := by
  change (read tokens).orElse (fun _ => other tokens) = some (a, rest) at h
  cases hfirst : read tokens with
  | none =>
    rw [hfirst] at h
    exact .inr h
  | some found =>
    rw [hfirst] at h
    exact .inl h

/-- A choice gives what has a property when both of its readers do. -/
theorem Gives.orElse {other : Reader α} (h : read.Gives P Q) (hother : other.Gives P Q) :
    (read <|> other).Gives P Q := by
  intro tokens htokens a rest hread
  rcases orElse_eq_some hread with hread | hread
  · exact h htokens hread
  · exact hother htokens hread

/-- What is made of a value that is read has the properties that follow from those of the value. -/
theorem Gives.map (h : read.Gives P Q) {f : α → β} (hf : ∀ a, P a → R (f a)) :
    (f <$> read).Gives R Q := by
  rw [map_eq_pure_bind]
  exact h.bind fun a ha => gives_pure (hf a ha)

/-- A reader whose value is not wanted still leaves a part of the tokens. -/
theorem Gives.discarded (h : read.Gives P Q) : (discard read).Gives (fun _ => True) Q := by
  change Gives _ (Functor.mapConst () read) Q
  rw [map_const]
  exact h.map fun _ _ => trivial

/-- The second of two readers gives what it gives behind the first one. -/
theorem Gives.seqRight (h : read.Gives P Q) {next : Reader β} (hnext : next.Gives R Q) :
    (read *> next).Gives R Q := by
  rw [seqRight_eq_bind]
  exact h.bind fun _ _ => hnext

/-- A look ahead takes no tokens. -/
theorem gives_sees (phrase : Phrase) : (sees phrase).Gives (fun _ => True) Q := by
  intro tokens _ a rest hread
  cases hread
  exact ⟨List.Subset.refl _, trivial⟩

/-- The check for the end takes no tokens. -/
theorem gives_atEnd : atEnd.Gives (fun _ => True) Q := by
  intro tokens _ a rest hread
  rw [atEnd] at hread
  split at hread
  · cases hread
    exact ⟨List.Subset.refl _, trivial⟩
  · cases hread

/-- All values of a bounded repetition have the property of one. -/
theorem Gives.upTo (h : read.Gives P Q) (n : Nat) :
    (upTo read n).Gives (fun as => ∀ a ∈ as, P a) Q := by
  induction n with
  | zero => exact gives_pure (by simp)
  | succ n ih =>
    intro tokens htokens as rest hread
    simp only [Reader.upTo] at hread
    split at hread
    · cases hread
      exact ⟨List.Subset.refl _, by simp⟩
    · next a middle ha =>
      obtain ⟨⟨more, last⟩, hmore, heq⟩ := Option.map_eq_some_iff.mp hread
      cases heq
      obtain ⟨hmiddle, ha⟩ := h htokens ha
      obtain ⟨hrest, hmore⟩ := ih (fun token htoken => htokens token (hmiddle htoken)) hmore
      exact ⟨List.Subset.trans hrest hmiddle, List.forall_mem_cons.mpr ⟨ha, hmore⟩⟩

/-- All values of a repetition have the property of one. -/
theorem Gives.many (h : read.Gives P Q) : (many read).Gives (fun as => ∀ a ∈ as, P a) Q :=
  fun tokens htokens _ _ hread => h.upTo tokens.length htokens hread

/-- What is read inside a group is read off its content, to the end. -/
theorem inside_eq_some_iff {bracket : Bracket} {tokens rest : List Token} {a : α} :
    inside bracket read tokens = some (a, rest) ↔
      ∃ content, tokens = .group bracket content :: rest ∧ read content = some (a, []) := by
  constructor
  · intro h
    unfold inside at h
    split at h
    · next found content rest' =>
      split at h
      · next hfound =>
        split at h
        · next b hb =>
          cases h
          exact ⟨content, by rw [hfound], hb⟩
        · cases h
      · cases h
    · cases h
  · rintro ⟨content, rfl, hread⟩
    simp [inside, hread]

/-- What is read off tokens with the property `Q` has the property `P`. -/
def Yields (P : α → Prop) (read : Reader α) (Q : Token → Prop := Token.IsSpelled) : Prop :=
  ∀ ⦃tokens⦄, (∀ token ∈ tokens, Q token) → ∀ ⦃a rest⦄, read tokens = some (a, rest) → P a

/-- What a reader gives it also yields. -/
theorem Gives.yields (h : read.Gives P Q) : read.Yields P Q :=
  fun _ htokens _ _ hread => (h htokens hread).2

/-- A reader after another one yields what it yields behind values with the property of the first.
-/
theorem Gives.bind_yields (h : read.Gives P Q) {next : α → Reader β}
    (hnext : ∀ a, P a → (next a).Yields R Q) : (read >>= next).Yields R Q := by
  intro tokens htokens b rest hread
  obtain ⟨⟨a, middle⟩, ha, hb⟩ := Option.bind_eq_some_iff.mp hread
  obtain ⟨hmiddle, ha⟩ := h htokens ha
  exact hnext a ha (fun token htoken => htokens token (hmiddle htoken)) hb

/-- What is read before has no effect on what holds wherever the rest is read. -/
theorem yields_bind {next : α → Reader β} (hnext : ∀ a, (next a).Yields R fun _ => True) :
    (read >>= next).Yields R Q := by
  intro tokens _ b rest hread
  obtain ⟨⟨a, middle⟩, -, hb⟩ := Option.bind_eq_some_iff.mp hread
  exact hnext a (fun _ _ => trivial) hb

/-- A choice yields what has a property when both of its readers do. -/
theorem Yields.orElse {other : Reader α} (h : read.Yields P Q) (hother : other.Yields P Q) :
    (read <|> other).Yields P Q := by
  intro tokens htokens a rest hread
  rcases orElse_eq_some hread with hread | hread
  · exact h htokens hread
  · exact hother htokens hread

/-- What is read inside a group has the property of what is read off its content. -/
theorem Yields.inside (h : read.Yields P Token.IsLexed) (bracket : Bracket) :
    (inside bracket read).Gives P Token.IsLexed := by
  intro tokens htokens a rest hread
  obtain ⟨content, rfl, hcontent⟩ := inside_eq_some_iff.mp hread
  cases htokens _ List.mem_cons_self with
  | group _ hall => exact ⟨List.subset_cons_self _ _, h hall hcontent⟩

/-- What is inside a group has no effect on what is left behind it. -/
theorem gives_inside (bracket : Bracket) (read : Reader α) :
    (inside bracket read).Gives (fun _ => True) Q := by
  intro tokens _ a rest hread
  obtain ⟨content, rfl, -⟩ := inside_eq_some_iff.mp hread
  exact ⟨List.subset_cons_self _ _, trivial⟩

/-- Only marks are dropped with an operator, and they are those of the operator. -/
theorem mem_of_dropMarks? {marks : List Char} {tokens rest : List Token}
    (h : dropMarks? marks tokens = some rest) :
    rest ⊆ tokens ∧ ∀ c ∈ marks, ∃ joint, .mark c joint ∈ tokens := by
  fun_induction dropMarks? marks tokens with
  | case1 =>
    cases h
    exact ⟨List.Subset.refl _, by simp⟩
  | case2 c joint rest' =>
    cases h
    exact ⟨List.subset_cons_self _ _, List.forall_mem_singleton.mpr ⟨joint, .head _⟩⟩
  | case3 => cases h
  | case4 c cs rest' _ ih =>
    obtain ⟨hrest, hmarks⟩ := ih h
    refine ⟨List.subset_cons_of_subset _ hrest, List.forall_mem_cons.mpr ⟨⟨true, .head _⟩, ?_⟩⟩
    intro d hd
    obtain ⟨joint, hjoint⟩ := hmarks d hd
    exact ⟨joint, .tail _ hjoint⟩
  | case5 => cases h
  | case6 => cases h

/-- An operator is read as its marks, which are characters of marks. -/
theorem gives_mark (symbol : String) :
    (mark symbol).Gives fun tokens =>
      tokens = operator symbol ∧ ∀ c ∈ symbol.toList, c ∈ markCharacters := by
  intro tokens htokens a rest hread
  obtain ⟨last, hlast, heq⟩ := Option.map_eq_some_iff.mp hread
  cases heq
  obtain ⟨hrest, hmarks⟩ := mem_of_dropMarks? hlast
  refine ⟨hrest, rfl, fun c hc => ?_⟩
  obtain ⟨joint, hjoint⟩ := hmarks c hc
  cases htokens _ hjoint with
  | mark hmark => exact hmark

/-- All values between commas have the property of one. -/
theorem Gives.commaSeparated (h : read.Gives P Token.IsLexed) :
    (commaSeparated read).Gives (fun as => ∀ a ∈ as, P a) Token.IsLexed := by
  have hcomma : (discard (mark ",") <|> atEnd).Gives (fun _ => True) Token.IsLexed :=
    (gives_mark ",").of_lexed.discarded.orElse gives_atEnd
  refine Gives.bind (h.bind fun a ha => hcomma.bind fun _ _ => gives_pure ha).many ?_
  exact fun as has => gives_atEnd.bind fun _ _ => gives_pure has

/-- All values of a list have the property of one, whatever the commas behind them say. -/
theorem Gives.listed (h : read.Gives P) (closing : Phrase) :
    (listed read closing).Gives fun as => ∀ a ∈ as, P a.1 := by
  refine (h.bind fun a ha => ?_).many
  have hcomma : ((mark "," *> pure true) <|> pure false : Reader Bool).Gives fun _ => True :=
    ((gives_mark ",").seqRight (gives_pure trivial)).orElse (gives_pure trivial)
  refine hcomma.bind fun comma _ => (gives_sees closing).bind fun closes _ => ?_
  split
  · exact gives_pure ha
  · exact gives_failure

end Reader

/-- A property of written tokens that holds of every token but literals, and of tokens that are
written one after another if it holds of the parts. -/
class HoldsOfParts (P : List Token → Prop) : Prop where
  nil : P []
  append {first rest : List Token} : P first → P rest → P (first ++ rest)
  name {text : String} : IsWord text → P [.name text]
  lifetime {text : String} : IsWord text → P [.lifetime ("'" ++ text)]
  operator {symbol : String} : (∀ c ∈ symbol.toList, c ∈ markCharacters) → P (operator symbol)
  group (bracket : Bracket) (content : List Token) : P [.group bracket content]

/-- The property holds of parts that are written one after another. -/
theorem holds_flatMap {α : Type} {P : List Token → Prop} [HoldsOfParts P] {f : α → List Token}
    {parts : List α} (h : ∀ part ∈ parts, P (f part)) : P (parts.flatMap f) := by
  induction parts with
  | nil => exact HoldsOfParts.nil
  | cons part parts ih =>
    obtain ⟨hpart, hparts⟩ := List.forall_mem_cons.mp h
    exact HoldsOfParts.append hpart (ih hparts)

namespace Phrase

open Reader

variable {P : List Token → Prop} {phrase : Phrase} {phrases : List Phrase}

/-- The first of several phrases that can be read has the property that they share. -/
theorem gives_first (h : phrases.Forall (·.Gives P)) : (first phrases).Gives P := by
  rw [List.forall_iff_forall_mem] at h
  induction phrases with
  | nil => exact gives_failure
  | cons phrase rest ih =>
    obtain ⟨hphrase, hrest⟩ := List.forall_mem_cons.mp h
    exact hphrase.orElse (ih hrest)

/-- A phrase in front of others gives what its tokens and theirs give together. -/
theorem gives_cons {P' R : List Token → Prop} (h : phrase.Gives P)
    (hrest : (all phrases).Gives P')
    (happend : ∀ {first rest : List Token}, P first → P' rest → R (first ++ rest)) :
    (all (phrase :: phrases)).Gives R :=
  h.bind fun _ hfirst => hrest.bind fun _ hmore => gives_pure (happend hfirst hmore)

/-- A keyword is read as itself. -/
theorem gives_word_eq (text : String) :
    (word text).Gives fun tokens => tokens = [.name text] ∧ IsWord text := by
  intro tokens htokens a rest hread
  unfold word at hread
  split at hread
  · obtain ⟨rfl, heq⟩ := Option.ite_none_right_eq_some.mp hread
    cases heq
    cases htokens _ List.mem_cons_self with
    | name hword => exact ⟨List.subset_cons_self _ _, rfl, hword⟩
  · cases hread

/-- A phrase that depends on a sign has the property that both of its forms share. -/
theorem gives_after (sign : Phrase) (h : phrase.Gives P) {otherwise : Phrase}
    (hotherwise : otherwise.Gives P) : (after sign phrase otherwise).Gives P := by
  refine (gives_sees sign).bind fun seen _ => ?_
  cases seen with
  | true => exact h
  | false => exact hotherwise

variable [HoldsOfParts P]

/-- The empty phrase has the property. -/
theorem gives_empty : empty.Gives P := gives_pure HoldsOfParts.nil

/-- Phrases one after another have the property when each of them does. -/
theorem gives_all (h : phrases.Forall (·.Gives P)) : (all phrases).Gives P := by
  rw [List.forall_iff_forall_mem] at h
  induction phrases with
  | nil => exact gives_empty
  | cons phrase rest ih =>
    obtain ⟨hphrase, hrest⟩ := List.forall_mem_cons.mp h
    exact gives_cons hphrase (ih hrest) HoldsOfParts.append

/-- A phrase that may be missing has the property when it does where it is there. -/
theorem gives_maybe (h : phrase.Gives P) : (maybe phrase).Gives P := h.orElse gives_empty

/-- A phrase any number of times has the property when it does once. -/
theorem gives_many (h : phrase.Gives P) : (many phrase).Gives P :=
  h.many.bind fun parts hparts => gives_pure (by simpa using holds_flatMap (f := id) hparts)

/-- A sign that must be missing takes nothing. -/
theorem gives_absent (sign : Phrase) : (absent sign).Gives P := by
  refine (gives_sees sign).bind fun seen _ => ?_
  cases seen with
  | true => exact gives_failure
  | false => exact gives_empty

/-- A sign that must be there takes nothing. -/
theorem gives_present (sign : Phrase) : (present sign).Gives P := by
  refine (gives_sees sign).bind fun seen _ => ?_
  cases seen with
  | true => exact gives_empty
  | false => exact gives_failure

/-- A phrase that is not written again has the property of the empty phrase. -/
theorem gives_unwritten {P' : List Token → Prop} (h : phrase.Gives P') :
    (unwritten phrase).Gives P :=
  h.discarded.bind fun _ _ => gives_empty

/-- An operator has the property. -/
theorem gives_mark (symbol : String) : (mark symbol).Gives P :=
  (Reader.gives_mark symbol).mono fun _ h => h.1 ▸ HoldsOfParts.operator h.2

/-- A keyword has the property. -/
theorem gives_word (text : String) : (word text).Gives P :=
  (gives_word_eq text).mono fun _ h => h.1 ▸ HoldsOfParts.name h.2

/-- An identifier has the property. -/
theorem gives_identifier : identifier.Gives P := by
  intro tokens htokens a rest hread
  unfold identifier at hread
  split at hread
  · obtain ⟨-, heq⟩ := Option.ite_none_left_eq_some.mp hread
    cases heq
    cases htokens _ List.mem_cons_self with
    | name hword => exact ⟨List.subset_cons_self _ _, HoldsOfParts.name hword⟩
  · cases hread

/-- A lifetime has the property. -/
theorem gives_lifetime : lifetime.Gives P := by
  intro tokens htokens a rest hread
  unfold lifetime at hread
  split at hread
  · cases hread
    cases htokens _ List.mem_cons_self with
    | lifetime hword => exact ⟨List.subset_cons_self _ _, HoldsOfParts.lifetime hword⟩
  · cases hread

/-- A group has the property, whatever is in it. -/
theorem gives_anyGroup : anyGroup.Gives P := by
  intro tokens _ a rest hread
  unfold anyGroup at hread
  split at hread
  · cases hread
    exact ⟨List.subset_cons_self _ _, HoldsOfParts.group _ _⟩
  · cases hread

/-- A group has the property, whatever phrase is read inside it. -/
theorem gives_group (bracket : Bracket) (content : Phrase) : (group bracket content).Gives P :=
  (gives_inside bracket content).bind fun _ _ => gives_pure (HoldsOfParts.group _ _)

/-- A phrase once or more, with an operator between, has the property when it does once. -/
theorem gives_separated (symbol : String) (h : phrase.Gives P) :
    (separated symbol phrase).Gives P :=
  gives_all ⟨h, gives_many (gives_all ⟨gives_mark symbol, h⟩)⟩

/-- A phrase any number of times, with commas between, has the property when it does once. -/
theorem gives_commas (h : phrase.Gives P) : (commas phrase).Gives P :=
  gives_maybe (gives_all ⟨gives_separated "," h, gives_maybe (gives_mark ",")⟩)

/-- A phrase any number of times, with plus signs between, has the property when it does once. -/
theorem gives_sum (h : phrase.Gives P) : (sum phrase).Gives P :=
  gives_maybe (gives_all ⟨gives_separated "+" h, gives_maybe (gives_mark "+")⟩)

end Phrase

end PreferenceInjector.Derive
