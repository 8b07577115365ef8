import PreferenceInjector.Proofs.Derive.LastSegments

/-!
# Type definitions that are read

What is known of a type definition because it has been read off a text: it is named by an
identifier, the arguments of its attributes are tokens of a text, and each of its named fields
resolves by the last segment of its type. Nothing is said of the fields of enumerations and unions
and of fields without names, for which there is no injector.
-/

namespace PreferenceInjector.Derive

open Phrase

open Reader hiding mark many atEnd gives_mark

/-- An identifier that is no keyword, plain or behind `r#`. -/
def IsLegalName (name : String) : Prop := IsWord name ∧ isKeyword name = false

/-- The list of tokens, if it is one, is taken from a text. -/
def AttributeArguments.IsLexed (arguments : AttributeArguments) : Prop :=
  ∀ content, arguments = .list content → ∀ token ∈ content, token.IsLexed

/-- Every named field resolves by the last segment of its type. -/
def Shape.ResolvesByLastNames (shape : Shape) : Prop :=
  ∀ fields, shape = .named fields → ∀ field ∈ fields, field.type.ResolvesByLastName

/-- What is known of a type definition that has been read. -/
structure Item.IsLexed (item : Item) : Prop where
  name : IsLegalName item.name
  attributes : ∀ found ∈ item.attributes, found.arguments.IsLexed
  shape : item.shape.ResolvesByLastNames

/-! ### Attributes and names -/

/-- The identifiers that are read are legal names. -/
theorem gives_readIdentifier : readIdentifier.Gives IsLegalName := by
  intro tokens htokens a rest hread
  unfold readIdentifier at hread
  split at hread
  · obtain ⟨hkeyword, heq⟩ := Option.ite_none_left_eq_some.mp hread
    cases heq
    cases htokens _ List.mem_cons_self with
    | name hword =>
      exact ⟨List.subset_cons_self _ _, hword, Bool.not_eq_true _ ▸ hkeyword⟩
  · cases hread

/-- Reading the path of a module leaves a part of the tokens. -/
theorem gives_readModulePath : readModulePath.Gives fun _ => True := by
  unfold readModulePath
  extract_lets name
  have hname : name.Gives fun _ => True := by
    intro tokens _ a rest hread
    unfold name at hread
    split at hread
    · obtain ⟨-, heq⟩ := Option.ite_none_right_eq_some.mp hread
      cases heq
      exact ⟨List.subset_cons_self _ _, trivial⟩
    · cases hread
  have hrooted : ((Reader.mark "::" *> pure true) <|> pure false : Reader Bool).Gives
      fun _ => True :=
    ((Reader.gives_mark "::").seqRight (gives_pure trivial)).orElse (gives_pure trivial)
  refine hrooted.bind fun rooted _ => hname.bind fun first _ => ?_
  exact ((Reader.gives_mark "::").seqRight hname).many.bind fun more _ => gives_pure trivial

/-- The tokens among the arguments of an attribute are tokens of the text. -/
theorem yields_readAttributeArguments :
    readAttributeArguments.Yields AttributeArguments.IsLexed Token.IsLexed := by
  intro tokens htokens a rest hread
  unfold readAttributeArguments at hread
  split at hread
  · cases hread
    cases htokens _ List.mem_cons_self with
    | group _ hcontent =>
      intro content hlist
      cases hlist
      exact hcontent
  · rcases orElse_eq_some hread with hread | hread
    · obtain ⟨⟨_, middle⟩, -, heq⟩ := Option.bind_eq_some_iff.mp hread
      cases heq
      exact fun _ hlist => nomatch hlist
    · cases hread
      exact fun _ hlist => nomatch hlist

/-- The tokens among the arguments of all attributes are tokens of the text. -/
theorem gives_readAttributes :
    readAttributes.Gives (fun attributes => ∀ found ∈ attributes, found.arguments.IsLexed)
      Token.IsLexed := by
  refine Gives.many ((Reader.gives_mark "#").of_lexed.discarded.bind fun _ _ => Yields.inside ?_ _)
  have hpath : ((Phrase.word "unsafe" *> pure (.ofNames false ["unsafe"])) <|> readModulePath :
      Reader Path).Gives (fun _ => True) Token.IsLexed :=
    (((gives_word_eq "unsafe").seqRight (gives_pure trivial)).orElse gives_readModulePath).of_lexed
  refine hpath.bind_yields fun path _ => ?_
  intro tokens htokens found rest hread
  obtain ⟨⟨arguments, last⟩, harguments, heq⟩ := Option.bind_eq_some_iff.mp hread
  cases heq
  exact yields_readAttributeArguments htokens harguments

/-- What says where a definition is visible has no literal at its end. -/
theorem gives_visible : visible.Gives IsClosed :=
  gives_first ⟨gives_all ⟨gives_word _, gives_group _ _⟩, gives_word _, gives_empty⟩

/-! ### Fields -/

/-- The types that are read resolve by their last segments. -/
theorem gives_readType : readType.Gives FieldType.ResolvesByLastName :=
  readsTypes_read.type.map fun _ => resolvesByLastName_ofTokens

/-- The types of all named fields resolve by their last segments. -/
theorem gives_readNamedFields :
    readNamedFields.Gives (fun fields => ∀ field ∈ fields, field.type.ResolvesByLastName)
      Token.IsLexed := by
  refine Yields.inside (Gives.yields (Gives.commaSeparated ?_)) _
  have hname : ((Phrase.word "_" *> pure "_") <|> readIdentifier : Reader String).Gives
      fun _ => True :=
    ((gives_word_eq "_").seqRight (gives_pure trivial)).orElse
      (gives_readIdentifier.mono fun _ _ => trivial)
  refine gives_readAttributes.bind fun attributes _ => ?_
  refine gives_visible.of_lexed.discarded.bind fun _ _ => hname.of_lexed.bind fun name _ => ?_
  refine (Reader.gives_mark ":").of_lexed.discarded.bind fun _ _ => ?_
  exact gives_readType.of_lexed.bind fun type htype => gives_pure htype

/-! ### Parameters and conditions -/

/-- A condition on types has no literal at its end. -/
theorem gives_condition : condition.Gives IsClosed :=
  gives_first ⟨gives_all ⟨gives_lifetime, gives_mark _, gives_sum gives_lifetime⟩,
    gives_all ⟨gives_maybe (gives_boundLifetimes _), readsTypes_read.type, gives_mark _,
      gives_sum (gives_bound readsTypes_read)⟩⟩

/-- Reading the conditions leaves a part of the tokens. -/
theorem gives_readConditions : readConditions.Gives fun _ => True := by
  have hconditions : (maybe (all [word "where", commas condition])).Gives IsClosed :=
    gives_maybe (gives_all ⟨gives_word _, gives_commas gives_condition⟩)
  exact hconditions.bind fun _ _ => gives_pure trivial

/-- Reading a parameter leaves a part of the tokens. -/
theorem gives_readParameter : readParameter.Gives fun _ => True := by
  have htype := readsTypes_read.type.mono fun _ => IsClosed.written
  have hblock := readsTypes_read.block.mono fun _ => IsClosed.written
  have hvalue : (maybe (all [Phrase.mark "=", first [constant, identifier, Rule.block.read]])).Gives
      IsWritten :=
    gives_maybe (gives_all ⟨gives_mark _, gives_first ⟨gives_constant, gives_identifier, hblock⟩⟩)
  have hdefault : (maybe (all [Phrase.mark "=", Rule.type.read])).Gives IsWritten :=
    gives_maybe (gives_all ⟨gives_mark _, htype⟩)
  have hbounds {bound : Phrase} (hbound : bound.Gives IsClosed) :
      (maybe (all [Phrase.mark ":", sum bound])).Gives IsClosed :=
    gives_maybe (gives_all ⟨gives_mark _, gives_sum hbound⟩)
  have hof : (all [Phrase.mark ":", Rule.type.read]).Gives IsWritten :=
    gives_all ⟨gives_mark _, htype⟩
  refine (gives_attributes Rule.read).bind fun attributes _ => ?_
  refine (Gives.orElse ?_ (Gives.orElse ?_ (Gives.orElse ?_ ?_)))
  · exact (gives_lifetime (P := IsClosed)).bind fun _ _ =>
      (hbounds gives_lifetime).bind fun _ _ => gives_pure trivial
  · exact gives_readIdentifier.bind fun _ _ =>
      (hbounds (gives_bound readsTypes_read)).bind fun _ _ =>
        hdefault.discarded.bind fun _ _ => gives_pure trivial
  · exact (gives_word_eq "const").discarded.bind fun _ _ =>
      gives_readIdentifier.bind fun _ _ => hof.bind fun _ _ =>
        hvalue.discarded.bind fun _ _ => gives_pure trivial
  · exact (gives_word_eq "_").discarded.bind fun _ _ => gives_pure trivial

/-- Reading the parameters leaves a part of the tokens. -/
theorem gives_readParameters : readParameters.Gives fun _ => True := by
  refine (gives_sees _).bind fun opens _ => ?_
  split
  · refine (gives_mark "<" (P := IsClosed)).discarded.bind fun _ _ => ?_
    refine (gives_readParameter.listed _).bind fun parameters _ => ?_
    exact (gives_mark ">" (P := IsClosed)).discarded.bind fun _ _ => gives_pure trivial
  · exact gives_pure trivial

/-! ### Definitions -/

/-- The named fields of a structure resolve by the last segments of their types. -/
theorem yields_readStructure :
    readStructure.Yields (fun found => found.2.ResolvesByLastNames) Token.IsLexed := by
  have hunnamed : Shape.ResolvesByLastNames .unnamed := fun _ h => nomatch h
  refine Yields.orElse ?_ ?_
  · refine yields_bind fun _ => yields_bind fun conditions => yields_bind fun _ => ?_
    refine Gives.yields (gives_pure ?_)
    exact hunnamed
  · refine gives_readConditions.of_lexed.bind_yields fun conditions _ => ?_
    have hnamed : (Shape.named <$> readNamedFields).Gives Shape.ResolvesByLastNames
        Token.IsLexed := by
      refine gives_readNamedFields.map fun fields hfields others hshape => ?_
      cases hshape
      exact hfields
    have hbody := hnamed.orElse ((Reader.gives_mark ";").of_lexed.seqRight (gives_pure hunnamed))
    refine hbody.bind_yields fun shape hshape => Gives.yields (gives_pure ?_)
    exact hshape

/-- Enumerations and unions have no named fields of their own. -/
theorem yields_readVariants (content : Reader Unit) :
    (readVariants content).Yields (fun found => found.2.ResolvesByLastNames) Token.IsLexed := by
  have hvariant : Shape.ResolvesByLastNames .variant := fun _ h => nomatch h
  refine yields_bind fun conditions => yields_bind fun _ => Gives.yields (gives_pure ?_)
  exact hvariant

/-- What is known of every type definition that is read. -/
theorem isLexed_of_ofText? {text : String} {item : Item} (h : Item.ofText? text = some item) :
    item.IsLexed := by
  have hitem : readItem.Yields Item.IsLexed Token.IsLexed := by
    unfold readItem
    refine gives_readAttributes.bind_yields fun attributes hattributes => ?_
    refine gives_visible.of_lexed.bind_yields fun visibility _ => ?_
    extract_lets ofKind
    have hkind (kind : String) {readBody : Reader (List Token × Shape)}
        (hbody : readBody.Yields (fun found => found.2.ResolvesByLastNames) Token.IsLexed) :
        (ofKind kind readBody).Yields Item.IsLexed Token.IsLexed := by
      refine (gives_word_eq kind).of_lexed.discarded.bind_yields fun _ _ => ?_
      refine gives_readIdentifier.of_lexed.bind_yields fun name hname => ?_
      refine gives_readParameters.of_lexed.bind_yields fun parameters _ => ?_
      intro tokens htokens item rest hread
      obtain ⟨⟨⟨conditions, shape⟩, last⟩, hshape, heq⟩ := Option.bind_eq_some_iff.mp hread
      cases heq
      exact ⟨hname, hattributes, hbody htokens hshape⟩
    exact (hkind _ yields_readStructure).orElse
      ((hkind _ (yields_readVariants _)).orElse (hkind _ (yields_readVariants _)))
  rw [Item.ofText?] at h
  split at h
  · next found hread =>
    cases h
    obtain ⟨tokens, htokens, hread⟩ := Option.bind_eq_some_iff.mp hread
    exact hitem (isLexed_of_tokensOf? htokens) hread
  · cases h

end PreferenceInjector.Derive
