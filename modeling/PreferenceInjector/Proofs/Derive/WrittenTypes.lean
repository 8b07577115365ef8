import PreferenceInjector.Proofs.Derive.Phrases
import PreferenceInjector.Derive.Item.Reader

/-!
# How types are written

A type is written with its names, marks and brackets, and never with a literal at its end: where
the grammar of types lets a literal stand in the open, as in a list of arguments or before a
function type, something else follows.
-/

namespace PreferenceInjector.Derive

open Phrase

open Reader hiding mark many atEnd gives_mark

/-- Tokens as they are written again: names are words, and the marks of an operator stand together.
What groups and literals hold is left open. -/
inductive IsWritten : List Token → Prop
  | nil : IsWritten []
  | name {text : String} {rest : List Token} (h : IsWord text) (hrest : IsWritten rest) :
      IsWritten (.name text :: rest)
  | lifetime {text : String} {rest : List Token} (h : IsWord text) (hrest : IsWritten rest) :
      IsWritten (.lifetime ("'" ++ text) :: rest)
  | literal (text : String) {rest : List Token} (hrest : IsWritten rest) :
      IsWritten (.literal text :: rest)
  | group (bracket : Bracket) (content : List Token) {rest : List Token} (hrest : IsWritten rest) :
      IsWritten (.group bracket content :: rest)
  | mark {character : Char} {rest : List Token} (h : character ∈ markCharacters)
      (hrest : IsWritten rest) : IsWritten (.mark character false :: rest)
  | joint {character next : Char} {more : Bool} {rest : List Token}
      (h : character ∈ markCharacters) (hrest : IsWritten (.mark next more :: rest)) :
      IsWritten (.mark character true :: .mark next more :: rest)

/-- Tokens as they are written again, without a literal at their end. -/
structure IsClosed (tokens : List Token) : Prop where
  written : IsWritten tokens
  last : ∀ text, tokens.getLast? ≠ some (.literal text)

/-- A function that reads rules and gives no literal at the end of a type. -/
structure ReadsTypes (rule : Rule → Phrase) : Prop where
  type : (rule .type).Gives IsClosed
  operandType : (rule .operandType).Gives IsClosed
  arguments : (rule .arguments).Gives IsClosed
  block : (rule .block).Gives IsClosed

/-! ### Written tokens -/

/-- Tokens that are written one after another are written. -/
theorem IsWritten.append {first rest : List Token} (hfirst : IsWritten first)
    (hrest : IsWritten rest) : IsWritten (first ++ rest) := by
  induction hfirst with
  | nil => exact hrest
  | name h _ ih => exact .name h ih
  | lifetime h _ ih => exact .lifetime h ih
  | literal text _ ih => exact .literal text ih
  | group bracket content _ ih => exact .group bracket content ih
  | mark h _ ih => exact .mark h ih
  | joint h _ ih => exact .joint h ih

/-- All tokens of an operator are marks. -/
theorem exists_mark_of_mem {marks : List Char} {token : Token} (h : token ∈ marksOf marks) :
    ∃ c joint, token = .mark c joint := by
  fun_induction marksOf marks with
  | case1 => cases h
  | case2 c => exact ⟨c, false, List.mem_singleton.mp h⟩
  | case3 c rest _ ih =>
    rcases List.mem_cons.mp h with rfl | h
    · exact ⟨c, true, rfl⟩
    · exact ih h

/-- The marks of an operator stand together. -/
theorem isWritten_marksOf {marks : List Char} (h : ∀ c ∈ marks, c ∈ markCharacters) :
    IsWritten (marksOf marks) := by
  fun_induction marksOf marks with
  | case1 => exact .nil
  | case2 c => exact .mark (h c (List.mem_singleton_self c)) .nil
  | case3 c rest hrest ih =>
    obtain ⟨hc, hmarks⟩ := List.forall_mem_cons.mp h
    obtain ⟨d, joint, more, hmore⟩ : ∃ d joint more, marksOf rest = .mark d joint :: more := by
      rcases rest with _ | ⟨d, _ | ⟨e, rest⟩⟩
      · exact (hrest rfl).elim
      · exact ⟨d, false, [], rfl⟩
      · exact ⟨d, true, marksOf (e :: rest), rfl⟩
    rw [hmore] at ih ⊢
    exact .joint hc (ih hmarks)

instance : HoldsOfParts IsWritten where
  nil := .nil
  append := .append
  name h := .name h .nil
  lifetime h := .lifetime h .nil
  operator := isWritten_marksOf
  group bracket content := .group bracket content .nil

instance : HoldsOfParts IsClosed where
  nil := ⟨.nil, by simp⟩
  append hfirst hrest := by
    refine ⟨hfirst.written.append hrest.written, fun text hlast => ?_⟩
    rw [List.getLast?_append, Option.or_eq_some_iff] at hlast
    rcases hlast with hlast | ⟨-, hlast⟩
    · exact hrest.last text hlast
    · exact hfirst.last text hlast
  name h := ⟨.name h .nil, by simp⟩
  lifetime h := ⟨.lifetime h .nil, by simp⟩
  operator h := by
    refine ⟨isWritten_marksOf h, fun text hlast => ?_⟩
    obtain ⟨c, joint, hmark⟩ := exists_mark_of_mem (List.mem_of_getLast? hlast)
    cases hmark
  group bracket content := ⟨.group bracket content .nil, by simp⟩

/-- Something closed closes what it follows. -/
theorem IsWritten.append_closed {first rest : List Token} (hfirst : IsWritten first)
    (hrest : IsClosed rest) (hne : rest ≠ []) : IsClosed (first ++ rest) := by
  refine ⟨hfirst.append hrest.written, fun text hlast => ?_⟩
  rw [List.getLast?_append_of_ne_nil _ hne] at hlast
  exact hrest.last text hlast

/-- Lifetimes are only moved to the front. -/
theorem isWritten_lifetimesFirst {elements : List Listed}
    (helements : ∀ element ∈ elements, IsWritten element.tokens) :
    IsWritten (lifetimesFirst elements) := by
  have hcomma : IsWritten (operator ",") := .mark (by decide) .nil
  have hwritten : ∀ element ∈ elements, IsWritten element.written := by
    intro element helement
    refine (helements element helement).append ?_
    split
    · exact hcomma
    · exact .nil
  have hpart (p : Listed → Bool) : IsWritten ((elements.filter p).flatMap Listed.written) :=
    holds_flatMap fun element helement => hwritten element (List.mem_of_mem_filter helement)
  refine ((hpart _).append ?_).append (hpart _)
  split
  · exact .nil
  · exact hcomma

/-! ### Literals -/

/-- A literal is written, whatever is in it. -/
theorem gives_literal : literal.Gives IsWritten := by
  intro tokens _ a rest hread
  unfold literal at hread
  split at hread
  · cases hread
    exact ⟨List.subset_cons_self _ _, .literal _ .nil⟩
  · cases hread

/-- A negative number is written as one literal. -/
theorem gives_negativeNumber : negativeNumber.Gives IsWritten := by
  intro tokens _ a rest hread
  unfold negativeNumber at hread
  split at hread
  · obtain ⟨-, heq⟩ := Option.ite_none_right_eq_some.mp hread
    cases heq
    exact ⟨List.subset_cons_of_subset _ (List.subset_cons_self _ _), .literal _ .nil⟩
  · cases hread

/-- A constant is written. -/
theorem gives_constant : constant.Gives IsWritten :=
  gives_first ⟨gives_literal, gives_negativeNumber, gives_word _, gives_word _⟩

/-! ### Types -/

/-- An exclamation mark ends in a mark. -/
theorem gives_exclamation : exclamation.Gives IsClosed :=
  gives_all ⟨gives_absent _, gives_mark _⟩

/-- The path of a module ends in a name. -/
theorem gives_modulePath : modulePath.Gives IsClosed :=
  gives_all ⟨gives_maybe (gives_mark _), gives_separated _
    (gives_first ⟨gives_word _, gives_word _, gives_word _, gives_word _, gives_identifier⟩)⟩

/-- The call of a macro ends in a bracket. -/
theorem gives_macroCall : macroCall.Gives IsClosed :=
  gives_all ⟨gives_modulePath, gives_exclamation, gives_anyGroup⟩

section Types

variable (rule : Rule → Phrase)

/-- Attributes end in a bracket. -/
theorem gives_attributes : (attributes rule).Gives IsClosed :=
  gives_many (gives_all ⟨gives_mark _, gives_group _ _⟩)

/-- The lifetimes that are bound end in a mark. -/
theorem gives_boundLifetimes : (boundLifetimes rule).Gives IsClosed :=
  gives_all ⟨gives_word _, gives_mark _,
    gives_commas (gives_all ⟨gives_attributes rule, gives_lifetime,
      gives_maybe (gives_all ⟨gives_mark _, gives_sum gives_lifetime⟩)⟩),
    gives_mark _⟩

variable {rule} (h : ReadsTypes rule)
include h

/-- A result type has no literal at its end. -/
theorem gives_returned : (returned rule).Gives IsClosed :=
  gives_maybe (gives_all ⟨gives_mark _, h.operandType⟩)

/-- Arguments in round brackets with a result type have no literal at their end. -/
theorem gives_callArguments : (callArguments rule).Gives IsClosed :=
  gives_all ⟨gives_unwritten (gives_maybe (gives_mark (P := IsClosed) _)), gives_group _ _,
    gives_returned h⟩

/-- The arguments of a segment have no literal at their end. -/
theorem gives_segmentArguments : (segmentArguments rule).Gives IsClosed :=
  gives_after _ h.arguments (gives_after _ (gives_callArguments h) gives_empty)

/-- A segment of a path has no literal at its end. -/
theorem gives_segment : (segment rule).Gives IsClosed :=
  gives_first ⟨gives_first ⟨gives_word _, gives_word _, gives_word _, gives_word _⟩,
    gives_all ⟨gives_first ⟨gives_word _, gives_identifier⟩, gives_segmentArguments h⟩⟩

/-- The path of a type has no literal at its end. -/
theorem gives_typePath : (typePath rule).Gives IsClosed :=
  gives_all ⟨gives_maybe (gives_mark _), gives_separated _ (gives_segment h)⟩

/-- The bound by a trait has no literal at its end. -/
theorem gives_traitBound : (traitBound rule).Gives IsClosed :=
  have hlifetimes := gives_maybe (gives_boundLifetimes rule)
  gives_all ⟨gives_maybe (gives_all ⟨gives_maybe (gives_mark _), gives_word _⟩), hlifetimes,
    gives_maybe (gives_mark _), hlifetimes, gives_typePath h⟩

/-- A trait has no literal at its end, in brackets or without them. -/
theorem gives_anyTrait : (anyTrait rule).Gives IsClosed :=
  gives_first ⟨gives_group _ _, gives_traitBound h⟩

/-- A bound has no literal at its end. -/
theorem gives_bound : (bound rule).Gives IsClosed :=
  gives_first ⟨gives_lifetime, gives_anyTrait h, gives_all ⟨gives_word _, gives_mark _,
    gives_commas (gives_first ⟨gives_lifetime, gives_word _, gives_identifier⟩), gives_mark _⟩⟩

/-- Bounds with a trait among them have no literal at their end. -/
theorem gives_traitBounds : (traitBounds rule).Gives IsClosed :=
  gives_all ⟨gives_many (gives_all ⟨gives_lifetime, gives_mark _⟩), gives_anyTrait h,
    gives_many (gives_all ⟨gives_mark _, gives_bound h⟩), gives_maybe (gives_mark _)⟩

/-- A type to which bounds can be added has no literal at its end. -/
theorem gives_summand : (summand rule).Gives IsClosed :=
  gives_first ⟨gives_group _ _, gives_all ⟨gives_boundLifetimes rule, gives_typePath h⟩,
    gives_all ⟨gives_typePath h, gives_absent _⟩⟩

/-- The literal of a function type, which names a calling convention, stands before `fn`. -/
theorem gives_functionType : (functionType rule).Gives IsClosed := by
  have hconvention : (maybe (all [word "extern", maybe literal])).Gives IsWritten :=
    gives_maybe (gives_all ⟨gives_word _, gives_maybe gives_literal⟩)
  have hfunction : (all [word "fn", group .round (commas (functionParameter rule)),
      returned rule]).Gives fun tokens => IsClosed tokens ∧ tokens ≠ [] := by
    refine gives_cons (gives_word_eq "fn") (gives_all ⟨gives_group _ _, gives_returned h⟩) ?_
    rintro first rest ⟨rfl, hword⟩ hrest
    exact ⟨HoldsOfParts.append (HoldsOfParts.name hword) hrest, by simp⟩
  refine gives_cons (gives_maybe (gives_boundLifetimes rule)) (gives_cons
    (gives_maybe (gives_word _)) (gives_cons hconvention hfunction ?_) HoldsOfParts.append)
    HoldsOfParts.append
  exact fun hfirst hrest => hfirst.append_closed hrest.1 hrest.2

/-- A path behind a type in brackets has no literal at its end when its segments have none. -/
theorem gives_qualifiedPath {segment : Phrase} (hsegment : segment.Gives IsClosed) :
    (qualifiedPath rule segment).Gives IsClosed :=
  gives_all ⟨gives_mark _, h.type, gives_maybe (gives_all ⟨gives_word _, gives_typePath h⟩),
    gives_mark _, gives_mark _, gives_separated _ hsegment⟩

/-- A type to which no bounds can be added has no literal at its end. -/
theorem gives_closedType : (closedType rule).Gives IsClosed :=
  gives_first ⟨gives_functionType h, gives_qualifiedPath h (gives_segment h), gives_macroCall,
    gives_group _ _,
    gives_all ⟨gives_mark _, gives_first ⟨gives_word _, gives_word _⟩, h.operandType⟩,
    gives_all ⟨gives_mark _, gives_maybe gives_lifetime, gives_maybe (gives_word _),
      h.operandType⟩,
    gives_exclamation, gives_word _⟩

/-- A type that stands behind a mark has no literal at its end. -/
theorem gives_operandType : (operandType rule).Gives IsClosed :=
  gives_first ⟨gives_all ⟨gives_word _, gives_maybe (gives_mark _), gives_anyTrait h⟩,
    gives_all ⟨gives_word _, gives_anyTrait h⟩, gives_summand h, gives_closedType h⟩

/-- A type has no literal at its end. -/
theorem gives_type : (type rule).Gives IsClosed :=
  have hbounds : (all [many (all [mark "+", bound rule]), maybe (mark "+")]).Gives IsClosed :=
    gives_all ⟨gives_many (gives_all ⟨gives_mark _, gives_bound h⟩), gives_maybe (gives_mark _)⟩
  gives_first ⟨gives_all ⟨gives_word _, gives_maybe (gives_mark _), gives_traitBounds h⟩,
    gives_all ⟨gives_word _, gives_traitBounds h⟩,
    gives_all ⟨gives_present _, gives_traitBounds h⟩,
    gives_all ⟨gives_summand h, gives_after _ hbounds gives_empty⟩,
    gives_closedType h⟩

/-- An argument is written, and may be a literal. -/
theorem gives_argument : (argument rule).Gives IsWritten :=
  have hblock := h.block.mono fun _ => IsClosed.written
  have htype := h.type.mono fun _ => IsClosed.written
  have hbound := (gives_bound h).mono fun _ => IsClosed.written
  have hequals : equals.Gives IsWritten := gives_all ⟨gives_absent _, gives_absent _, gives_mark _⟩
  gives_first ⟨gives_all ⟨gives_lifetime, gives_absent _⟩, gives_constant, hblock,
    gives_all ⟨htype, gives_maybe (gives_first
      ⟨gives_all ⟨hequals, gives_first ⟨gives_constant, hblock, htype⟩⟩,
        gives_all ⟨gives_mark _, gives_sum hbound⟩⟩)⟩⟩

/-- Arguments may be literals, but a bracket stands behind them. -/
theorem gives_arguments : (arguments rule).Gives IsClosed := by
  have hopening : (all [maybe (mark "::"), mark "<"]).Gives IsWritten :=
    gives_all ⟨gives_maybe (gives_mark _), gives_mark _⟩
  refine hopening.bind fun opening hopening => ?_
  refine ((gives_argument h).listed _).bind fun found hfound => ?_
  refine (Reader.gives_mark ">").bind fun closing hclosing => gives_pure ?_
  obtain ⟨rfl, hmarks⟩ := hclosing
  have hclosed : IsClosed (operator ">") := HoldsOfParts.operator hmarks
  refine (hopening.append (isWritten_lifetimesFirst ?_)).append_closed hclosed (by decide)
  intro element helement
  obtain ⟨argument, hargument, rfl⟩ := List.mem_map.mp helement
  exact hfound argument hargument

end Types

/-- Rules that are read at any depth give no literal at the end of a type. -/
theorem readsTypes_within (depth : Nat) : ReadsTypes (Rule.within depth) := by
  induction depth with
  | zero => exact ⟨gives_failure, gives_failure, gives_failure, gives_failure⟩
  | succ depth ih =>
    exact ⟨gives_type ih, gives_operandType ih, gives_arguments ih, gives_group _ _⟩

/-- What holds at every depth holds of a rule that is read. -/
theorem gives_read {rule : Rule} {P : List Token → Prop}
    (h : ∀ depth, (rule.within depth).Gives P) : rule.read.Gives P :=
  fun _ htokens _ _ hread => h _ htokens hread

/-- The rules that are read without a limit give no literal at the end of a type. -/
theorem readsTypes_read : ReadsTypes Rule.read where
  type := gives_read fun depth => (readsTypes_within depth).type
  operandType := gives_read fun depth => (readsTypes_within depth).operandType
  arguments := gives_read fun depth => (readsTypes_within depth).arguments
  block := gives_read fun depth => (readsTypes_within depth).block

end PreferenceInjector.Derive
