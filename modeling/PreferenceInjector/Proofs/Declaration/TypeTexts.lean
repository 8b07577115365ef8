import PreferenceInjector.Proofs.Declaration.Parsing

/-!
# Declared types as texts

A field keeps its type as text, from the first to the last token of the type. When no comment is in
that text, its form can be told from its last character: a type that is only a name is declared as
that name, and any other type ends in the bracket that closes its arguments or its last array
dimension. The simple name of such a text ends in the bracket, wherever its last dot may be, and so
it is no identifier.
-/

namespace PreferenceInjector.Declaration

/-- The type is a name, without type arguments and without array dimensions. -/
def TypeTree.IsName (type : TypeTree) (name : Dotted) : Prop := ∃ gap, type = .plain name gap []

/-- The type has type arguments. -/
def TypeTree.HasArguments : TypeTree → Prop
  | plain .. => False
  | applied .. => True

/-- The array dimensions of the type itself. -/
def TypeTree.dimensions : TypeTree → Dimensions
  | plain _ _ dimensions => dimensions
  | applied _ _ _ _ dimensions => dimensions

/-- A type with arguments or array dimensions is not only a name. -/
theorem TypeTree.not_isName {type : TypeTree} (h : type.HasArguments ∨ type.dimensions ≠ [])
    (name : Dotted) : ¬ type.IsName name := by
  intro hname
  obtain ⟨gap, rfl⟩ := hname
  rcases h with harguments | hdimensions
  · exact harguments
  · exact hdimensions rfl

/-- The text of type arguments ends in the closing bracket. -/
theorem TypeListTree.exists_text_eq (arguments : TypeListTree) :
    ∃ before, arguments.text = before ++ ['>'] := by
  cases arguments with
  | last before type after => exact ⟨before.text ++ type.text ++ after.text, by rw [text]⟩
  | cons before type after rest =>
    obtain ⟨more, hmore⟩ := rest.exists_text_eq
    refine ⟨before.text ++ type.text ++ after.text ++ ',' :: more, ?_⟩
    rw [text, hmore, List.append_assoc _ (',' :: more), List.cons_append]

/-- The text of array dimensions ends in the bracket of the last one. -/
theorem Dimensions.exists_text_eq {dimensions : Dimensions} (h : dimensions ≠ []) :
    ∃ before, Dimensions.text dimensions = before ++ [']'] := by
  obtain ⟨front, ⟨gap, inside⟩, rfl⟩ := (List.eq_nil_or_concat' dimensions).resolve_left h
  exact ⟨Dimensions.text front ++ gap.text ++ '[' :: inside.text, by simp [Dimensions.text]⟩

/-- No white space is in a legal name. -/
theorem Dotted.IsLegal.not_isWhiteSpace {name : Dotted} (h : name.IsLegal) :
    ∀ c ∈ name.text, isWhiteSpace c = false := by
  intro c hc
  rcases List.mem_append.mp hc with hc | hc
  · exact not_isWhiteSpace_of_isIdentifierPart (h.1.isIdentifierPart c hc)
  · obtain ⟨part, hpart, hc⟩ := List.mem_flatMap.mp hc
    rcases List.mem_cons.mp hc with rfl | hc
    · decide
    · exact not_isWhiteSpace_of_isIdentifierPart ((h.2 part hpart).isIdentifierPart c hc)

/-- Of a legal name and what follows it up to a bracket, only the white space behind the bracket is
trimmed off. -/
theorem Dotted.IsLegal.trimmed_append_bracket {name : Dotted} (h : name.IsLegal)
    (more : List Char) {bracket : Char} (hbracket : bracket = '>' ∨ bracket = ']')
    {blanks : List Char} (hblanks : ∀ c ∈ blanks, isWhiteSpace c = true) :
    trimmed (name.text ++ more ++ [bracket] ++ blanks) = name.text ++ more ++ [bracket] := by
  rw [trimmed_append hblanks]
  apply trimmed_eq_self
  · obtain ⟨c, first, hfirst, hc⟩ := h.1.exists_cons
    intro d hd
    have hhead : d = c := by simpa [Dotted.text, hfirst, eq_comm] using hd
    rw [hhead]
    exact not_isWhiteSpace_of_isIdentifierPart (isIdentifierPart_of_isIdentifierStart hc)
  · intro d hd
    rw [List.getLast?_concat, Option.mem_some_iff] at hd
    rw [← hd]
    rcases hbracket with rfl | rfl <;> decide

section Bare

variable {type : TypeTree} {name : Dotted} {gap : Gap} {rest : List Char}

/-- A bare type without arguments and array dimensions is its name. -/
theorem trimmed_plain (hlegal : Legal (TypeTree.plain name gap []).pieces rest)
    (hbare : ∀ piece ∈ gap, ¬ piece.IsComment) :
    trimmed (TypeTree.plain name gap []).text = name.text := by
  have hname : name.IsLegal := hlegal.dotted (by simp [TypeTree.pieces])
  obtain ⟨r, hgap⟩ : ∃ r, Legal (Gap.pieces gap) r :=
    hlegal.of_infix [.dotted name] [] (by simp [TypeTree.pieces, Dimensions.pieces])
  have htext : (TypeTree.plain name gap []).text = name.text ++ Gap.text gap := by
    simp [TypeTree.text, Dimensions.text]
  rw [htext, trimmed_append (isWhiteSpace_of_mem_gap hgap hbare)]
  apply trimmed_eq_self
  · exact fun c hc => hname.not_isWhiteSpace c (List.mem_of_mem_head? hc)
  · exact fun c hc => hname.not_isWhiteSpace c (List.mem_of_mem_getLast? hc)

/-- Any other bare type ends in a closing bracket. -/
theorem TypeTree.exists_trimmed_eq (hlegal : Legal type.pieces rest)
    (hbare : ∀ piece, .skipped piece ∈ type.pieces → ¬ piece.IsComment)
    (h : ∀ name, ¬ type.IsName name) :
    ∃ before bracket, trimmed type.text = before ++ [bracket] ∧
      (bracket = '>' ∨ bracket = ']') := by
  cases type with
  | plain name gap dimensions =>
    have hname : name.IsLegal := hlegal.dotted (by simp [TypeTree.pieces])
    have hne : dimensions ≠ [] := by
      intro hnil
      exact h name ⟨gap, by rw [hnil]⟩
    obtain ⟨before, hbefore⟩ := Dimensions.exists_text_eq hne
    have htext : (TypeTree.plain name gap dimensions).text =
        name.text ++ (gap.text ++ before) ++ [']'] ++ [] := by
      simp [TypeTree.text, hbefore]
    rw [htext, hname.trimmed_append_bracket _ (Or.inr rfl) (List.forall_mem_nil _)]
    exact ⟨_, _, rfl, Or.inr rfl⟩
  | applied name gap arguments after dimensions =>
    have hname : name.IsLegal := hlegal.dotted (by simp [TypeTree.pieces])
    -- Without dimensions the type ends in the bracket of its arguments, and blanks may follow.
    by_cases hnil : dimensions = []
    · subst hnil
      obtain ⟨r, hafter⟩ : ∃ r, Legal (Gap.pieces after) r :=
        hlegal.of_infix (.dotted name :: Gap.pieces gap ++ .fixed ['<'] :: arguments.pieces) []
          (by simp [TypeTree.pieces, Dimensions.pieces])
      have hblanks : ∀ c ∈ Gap.text after, isWhiteSpace c = true :=
        isWhiteSpace_of_mem_gap hafter fun piece hpiece =>
          hbare piece (by simp [TypeTree.pieces, Gap.pieces, hpiece])
      obtain ⟨more, hmore⟩ := arguments.exists_text_eq
      have htext : (TypeTree.applied name gap arguments after []).text =
          name.text ++ (gap.text ++ '<' :: more) ++ ['>'] ++ Gap.text after := by
        simp [TypeTree.text, Dimensions.text, hmore]
      rw [htext, hname.trimmed_append_bracket _ (Or.inl rfl) hblanks]
      exact ⟨_, _, rfl, Or.inl rfl⟩
    · obtain ⟨before, hbefore⟩ := Dimensions.exists_text_eq hnil
      have htext : (TypeTree.applied name gap arguments after dimensions).text =
          name.text ++ (gap.text ++ '<' :: arguments.text ++ after.text ++ before) ++ [']'] ++
            [] := by
        simp [TypeTree.text, hbefore]
      rw [htext, hname.trimmed_append_bracket _ (Or.inr rfl) (List.forall_mem_nil _)]
      exact ⟨_, _, rfl, Or.inr rfl⟩

/-- A bare type that is a name is declared with its last identifier as simple name. -/
theorem TypeTree.IsName.simpleName (h : type.IsName name) (hlegal : Legal type.pieces rest)
    (hbare : ∀ piece, .skipped piece ∈ type.pieces → ¬ piece.IsComment) :
    simpleName (String.ofList (trimmed type.text)) = String.ofList name.last := by
  obtain ⟨gap, rfl⟩ := h
  have hname : name.IsLegal := hlegal.dotted (by simp [TypeTree.pieces])
  have hgap : ∀ piece ∈ gap, ¬ piece.IsComment :=
    fun piece hpiece => hbare piece (by simp [TypeTree.pieces, Gap.pieces, hpiece])
  rw [trimmed_plain hlegal hgap]
  exact hname.simpleName

/-- The simple name of a bare type that is not only a name is no identifier. -/
theorem TypeTree.exists_mem_simpleName (hlegal : Legal type.pieces rest)
    (hbare : ∀ piece, .skipped piece ∈ type.pieces → ¬ piece.IsComment)
    (h : ∀ name, ¬ type.IsName name) :
    ∃ c ∈ (simpleName (String.ofList (trimmed type.text))).toList, isIdentifierPart c = false := by
  obtain ⟨before, bracket, htext, hbracket⟩ := TypeTree.exists_trimmed_eq hlegal hbare h
  refine ⟨bracket, ?_, ?_⟩
  · rcases hbracket with rfl | rfl <;> simp [simpleName, htext]
  · rcases hbracket with rfl | rfl <;> decide

end Bare

/-- The type of a legal field is legal. -/
theorem FieldTree.legal_type {tree : FieldTree} {rest : List Char} (h : Legal tree.pieces rest) :
    ∃ r, Legal tree.type.pieces r :=
  h.of_infix (spread Decoration.pieces tree.decorations ++ Gap.pieces tree.beforeType)
    (Gap.pieces tree.beforeName ++ .identifier tree.name :: Gap.pieces tree.beforeEnd ++
      [.fixed [';']]) (by simp [FieldTree.pieces])

end PreferenceInjector.Declaration
