import PreferenceInjector.Text.Front
import PreferenceInjector.Declaration.Tree

/-!
# Words of the declaration grammar

The scanners for what the grammar reads character by character: gaps, identifiers, dotted names,
modifiers and the arguments of annotations. Each takes its word off the front of a text and
fails, without an explanation, on a text that does not start with one. Arguments of annotations
are balanced text: parentheses nest, and those inside a quoted literal do not count.
-/

namespace PreferenceInjector.Declaration

/-- Whether a character separates tokens. -/
def isBlank (c : Char) : Bool := c == ' ' || c == '\t' || c == '\r' || c == '\n'

/-- Whether a character ends a line comment. -/
def isLineEnd (c : Char) : Bool := c == '\r' || c == '\n'

/-- Whether an identifier can start with a character. -/
def isIdentifierStart (c : Char) : Bool := c.isAlpha || c == '_' || c == '$'

/-- Whether an identifier can go on with a character. -/
def isIdentifierPart (c : Char) : Bool := c.isAlphanum || c == '_' || c == '$'

/-- The words that may stand before a field's type without being a type. -/
def modifierWords : List (List Char) :=
  ["public", "protected", "private", "static", "final", "transient", "volatile"].map (·.toList)

/-- The body of a block comment after its opening mark, and what follows its closing mark. -/
def blockBody : List Char → Option (List Char × List Char)
  | [] => none
  | '*' :: '/' :: rest => some ([], rest)
  | c :: rest => (blockBody rest).map fun (body, after) => (c :: body, after)

/-- One blank or comment at the front of a text. -/
def skipOne? : List Char → Option (Skipped × List Char)
  | '/' :: '/' :: rest =>
    some (.lineComment (rest.takeWhile (! isLineEnd ·)), rest.dropWhile (! isLineEnd ·))
  | '/' :: '*' :: rest => (blockBody rest).map fun (body, after) => (.blockComment body, after)
  | c :: rest => if isBlank c then some (.blank c, rest) else none
  | [] => none

/-- What follows a comment is shorter than the text from its content on. -/
theorem length_of_blockBody {s body rest : List Char} (h : blockBody s = some (body, rest)) :
    rest.length < s.length := by
  fun_induction blockBody s generalizing body with
  | case1 => cases h
  | case2 after =>
    cases h
    simp only [List.length_cons]
    omega
  | case3 c after hne ih =>
    obtain ⟨⟨b, a⟩, hb, hp⟩ := Option.map_eq_some_iff.1 h
    cases hp
    exact Nat.lt_succ_of_lt (ih hb)

/-- What follows a blank or a comment is shorter. -/
theorem length_of_skipOne? {s rest : List Char} {piece : Skipped}
    (h : skipOne? s = some (piece, rest)) : rest.length < s.length := by
  unfold skipOne? at h
  split at h
  · next after =>
    cases h
    have := dropWhile_length_le (! isLineEnd ·) after
    simp; omega
  · next after =>
    obtain ⟨⟨b, a⟩, hb, hp⟩ := Option.map_eq_some_iff.1 h
    cases hp
    have := length_of_blockBody hb
    simp; omega
  · split at h
    · cases h; simp
    · cases h
  · cases h

/-- The gap at the front of a text: all blanks and complete comments up to the next token. -/
def takeGap (s : List Char) : Gap × List Char :=
  match _h : skipOne? s with
  | some (piece, rest) =>
    let (gap, after) := takeGap rest
    (piece :: gap, after)
  | none => ([], s)
termination_by s.length
decreasing_by exact length_of_skipOne? _h

/-- What follows a gap is no longer. -/
theorem takeGap_length_le (s : List Char) : (takeGap s).2.length ≤ s.length := by
  fun_induction takeGap s with
  | case1 s piece rest h gap after heq ih =>
    rw [heq] at ih
    exact Nat.le_trans ih (Nat.le_of_lt (length_of_skipOne? h))
  | case2 => simp

/-- An identifier at the front of a text. -/
def takeIdentifier? : List Char → Option (List Char × List Char)
  | [] => none
  | c :: rest =>
    if isIdentifierStart c then
      some (c :: rest.takeWhile isIdentifierPart, rest.dropWhile isIdentifierPart)
    else none

/-- What follows an identifier is shorter. -/
theorem length_of_takeIdentifier? {s name rest : List Char}
    (h : takeIdentifier? s = some (name, rest)) : rest.length < s.length := by
  cases s with
  | nil => cases h
  | cons c s =>
    simp only [takeIdentifier?] at h
    split at h
    · cases h
      exact Nat.lt_succ_of_le (dropWhile_length_le _ _)
    · cases h

/-- The identifiers that continue a dotted name, each after its dot. -/
def takeDotted (s : List Char) : List (List Char) × List Char :=
  match s with
  | '.' :: rest =>
    match _h : takeIdentifier? rest with
    | some (name, after) =>
      let (more, last) := takeDotted after
      (name :: more, last)
    | none => ([], '.' :: rest)
  | _ => ([], s)
termination_by s.length
decreasing_by
  have := length_of_takeIdentifier? _h
  simp; omega

/-- What follows the further parts of a name is no longer. -/
theorem takeDotted_length_le (s : List Char) : (takeDotted s).2.length ≤ s.length := by
  fun_induction takeDotted s with
  | case1 rest name after h more last heq ih =>
    rw [heq] at ih
    exact Nat.le_trans ih (Nat.le_succ_of_le (Nat.le_of_lt (length_of_takeIdentifier? h)))
  | case2 => simp
  | case3 => simp

/-- A dotted name at the front of a text. -/
def takeName? (s : List Char) : Option (Dotted × List Char) :=
  (takeIdentifier? s).map fun (first, rest) =>
    let (more, after) := takeDotted rest
    (⟨first, more⟩, after)

/-- What follows a dotted name is shorter. -/
theorem length_of_takeName? {s rest : List Char} {name : Dotted}
    (h : takeName? s = some (name, rest)) : rest.length < s.length := by
  obtain ⟨⟨first, after⟩, hf, hp⟩ := Option.map_eq_some_iff.1 h
  cases hp
  exact Nat.lt_of_le_of_lt (takeDotted_length_le after) (length_of_takeIdentifier? hf)

/-- A modifier at the front of a text: one of the modifier words that no identifier continues. -/
def takeModifier? (s : List Char) : Option (List Char × List Char) :=
  if modifierWords.contains (s.takeWhile isIdentifierPart) then
    some (s.takeWhile isIdentifierPart, s.dropWhile isIdentifierPart)
  else none

/-- What follows a modifier is shorter. -/
theorem length_of_takeModifier? {s word rest : List Char}
    (h : takeModifier? s = some (word, rest)) : rest.length < s.length := by
  simp only [takeModifier?] at h
  split at h
  · next hw =>
    cases h
    have hlen : (s.takeWhile isIdentifierPart).length + (s.dropWhile isIdentifierPart).length
        = s.length := by
      rw [← List.length_append, List.takeWhile_append_dropWhile]
    have hpos : 0 < (s.takeWhile isIdentifierPart).length := by
      rcases hnil : s.takeWhile isIdentifierPart with _ | ⟨c, w⟩
      · rw [hnil] at hw; revert hw; decide
      · simp
    omega
  · cases h

/-- The rest of a literal after its opening quote, the closing quote included. A backslash takes
the character after it along. -/
def literalBody (quote : Char) : List Char → Option (List Char × List Char)
  | [] => none
  | '\\' :: c :: rest =>
    (literalBody quote rest).map fun (body, after) => ('\\' :: c :: body, after)
  | c :: rest =>
    if c = quote then some ([c], rest)
    else (literalBody quote rest).map fun (body, after) => (c :: body, after)

/-- A string or character literal at the front of a text, its quotes included. -/
def takeLiteral? : List Char → Option (List Char × List Char)
  | [] => none
  | c :: rest =>
    if c = '"' ∨ c = '\'' then
      (literalBody c rest).map fun (body, after) => (c :: body, after)
    else none

/-- What follows a literal is shorter than the text from its content on. -/
theorem length_of_literalBody {quote : Char} {s body rest : List Char}
    (h : literalBody quote s = some (body, rest)) : rest.length < s.length := by
  fun_induction literalBody quote s generalizing body with
  | case1 => cases h
  | case2 c after ih =>
    obtain ⟨⟨b, a⟩, hb, hp⟩ := Option.map_eq_some_iff.1 h
    cases hp
    have := ih hb
    simp; omega
  | case3 => cases h; simp
  | case4 c after _ _ ih =>
    obtain ⟨⟨b, a⟩, hb, hp⟩ := Option.map_eq_some_iff.1 h
    cases hp
    exact Nat.lt_succ_of_lt (ih hb)

/-- What follows a literal is shorter. -/
theorem length_of_takeLiteral? {s word rest : List Char}
    (h : takeLiteral? s = some (word, rest)) : rest.length < s.length := by
  cases s with
  | nil => cases h
  | cons c s =>
    simp only [takeLiteral?] at h
    split at h
    · obtain ⟨⟨b, a⟩, hb, hp⟩ := Option.map_eq_some_iff.1 h
      cases hp
      exact Nat.lt_succ_of_lt (length_of_literalBody hb)
    · cases h

/-- A literal at the front of a text with a rest that is shorter. -/
def literalAt? (s : List Char) :
    Option (List Char × { rest : List Char // rest.length < s.length }) :=
  match h : takeLiteral? s with
  | some (word, rest) => some (word, ⟨rest, length_of_takeLiteral? h⟩)
  | none => none

/-- Whether a character has a meaning of its own inside annotation arguments. -/
def isArgumentMark (c : Char) : Bool := c == '(' || c == ')' || c == '"' || c == '\''

mutual

/-- The arguments of an annotation at the front of a text, their parentheses included. -/
def takeArguments? (s : List Char) :
    Option (List Char × { rest : List Char // rest.length < s.length }) :=
  match s with
  | [] => none
  | c :: rest =>
    if c = '(' then
      match takeArgumentText rest with
      | (_, ⟨[], _⟩) => none
      | (body, ⟨last :: after, h⟩) =>
        if last = ')' then some ('(' :: body ++ [')'], ⟨after, by simp at h ⊢; omega⟩) else none
    else none
termination_by (s.length, 0)

/-- The text between the parentheses: literals, nested arguments and other characters. -/
def takeArgumentText (s : List Char) :
    List Char × { rest : List Char // rest.length ≤ s.length } :=
  match literalAt? s with
  | some (word, ⟨rest, hlen⟩) =>
    let (body, ⟨after, ha⟩) := takeArgumentText rest
    (word ++ body, ⟨after, by omega⟩)
  | none =>
    match takeArguments? s with
    | some (word, ⟨rest, hlen⟩) =>
      let (body, ⟨after, ha⟩) := takeArgumentText rest
      (word ++ body, ⟨after, by omega⟩)
    | none =>
      match s with
      | [] => ([], ⟨[], by simp⟩)
      | c :: rest =>
        if isArgumentMark c then ([], ⟨c :: rest, by simp⟩)
        else
          let (body, ⟨after, ha⟩) := takeArgumentText rest
          (c :: body, ⟨after, by simp; omega⟩)
termination_by (s.length, 1)

end

end PreferenceInjector.Declaration
