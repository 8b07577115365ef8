import PreferenceInjector.Derive.Token
import PreferenceInjector.Derive.Literal
import PreferenceInjector.Text.WhiteSpace
import PreferenceInjector.Unicode.Printable

/-!
# From text to tokens

A text is read as leaves and brackets with gaps between them, and the brackets are then matched.
Gaps are white space and comments. A documentation comment is no gap: it stands for the attribute
that holds its text. Reading fails at a character that starts nothing, and when the brackets do
not match.
-/

namespace PreferenceInjector.Derive

open Taken

/-- A text up to the end of its line, and what follows; a carriage return before the line feed
belongs to the line end. -/
def splitLine : List Char → List Char × List Char
  | [] => ([], [])
  | '\n' :: rest => ([], '\n' :: rest)
  | '\r' :: '\n' :: rest => ([], '\n' :: rest)
  | c :: rest => (c :: (splitLine rest).1, (splitLine rest).2)

/-- What follows a line is no longer than the text that it begins. -/
theorem splitLine_length_le (s : List Char) : (splitLine s).2.length ≤ s.length := by
  fun_induction splitLine s with
  | case1 | case2 => exact Nat.le_refl _
  | case3 rest => exact Nat.le_succ _
  | case4 c rest _ _ ih => exact Nat.le_succ_of_le ih

/-- The text of a comment up to its closing mark, and what follows it, inside `depth` further
comments. -/
def splitComment? (depth : Nat) : List Char → Option (List Char × List Char)
  | [] => none
  | '/' :: '*' :: rest =>
    (splitComment? (depth + 1) rest).map fun (text, after) => ('/' :: '*' :: text, after)
  | '*' :: '/' :: rest =>
    match depth with
    | 0 => some ([], rest)
    | outer + 1 => (splitComment? outer rest).map fun (text, after) => ('*' :: '/' :: text, after)
  | c :: rest => (splitComment? depth rest).map fun (text, after) => (c :: text, after)

/-- What follows a comment is shorter than the text that it begins. -/
theorem length_of_splitComment? {depth : Nat} {s text after : List Char}
    (h : splitComment? depth s = some (text, after)) : after.length < s.length := by
  fun_induction splitComment? depth s generalizing text with
  | case1 => simp at h
  | case2 _ rest ih | case4 rest _ ih | case5 _ _ rest _ _ ih =>
    simp only [Option.map_eq_some_iff, Prod.mk.injEq, Prod.exists] at h
    obtain ⟨inner, _, found, -, rfl⟩ := h
    have := ih found
    simp only [List.length_cons]
    omega
  | case3 rest =>
    simp only [Option.some.injEq, Prod.mk.injEq] at h
    simp only [← h.2, List.length_cons]
    omega

/-- The rest of a line, which is always there. -/
def takeLine (s : List Char) : Kept (List Char) s :=
  ((splitLine s).1, ⟨(splitLine s).2, splitLine_length_le s⟩)

/-- The rest of a comment with its closing mark. -/
def takeCommentRest (s : List Char) : Taken (List Char) s :=
  match h : splitComment? 0 s with
  | some (text, after) => some (text, ⟨after, length_of_splitComment? h⟩)
  | none => none

/-- Whether a text begins with a documentation comment, and whether that one is inner: it
documents what it stands in. -/
def documentation? : List Char → Option Bool
  | '/' :: '/' :: '!' :: _ => some true
  | '/' :: '*' :: '!' :: _ => some true
  | '/' :: '/' :: '/' :: '/' :: _ => none
  | '/' :: '/' :: '/' :: _ => some false
  | '/' :: '*' :: '*' :: '*' :: _ => none
  | '/' :: '*' :: '*' :: '/' :: _ => none
  | '/' :: '*' :: '*' :: _ => some false
  | _ => none

/-- A comment of either form with its text. -/
def takeComment (s : List Char) : Taken (List Char) s :=
  ((word ['/', '/'] s).finish fun _ r _ => takeLine r).or fun _ =>
    (word ['/', '*'] s).andThen fun _ r _ => takeCommentRest r

/-- Whether a character is a blank between tokens; the two marks of writing direction are. -/
def isBlank (c : Char) : Bool := isWhiteSpace c || c == '\u200e' || c == '\u200f'

/-- A blank or a comment that documents nothing. -/
def takeGapPiece (s : List Char) : Taken Unit s :=
  ((one isBlank s).as fun _ => ()).or fun _ =>
    if (documentation? s).isSome then none else (takeComment s).as fun _ => ()

/-- The characters of operators. -/
def markCharacters : List Char := "~!@#$%^&*-=+|;:,<.>/?'".toList

/-- Whether a text begins with a character of an operator, and not with a comment. -/
def startsMark (s : List Char) : Bool :=
  s.head?.any markCharacters.contains &&
    !(['/', '/'].isPrefixOf s || ['/', '*'].isPrefixOf s)

/-- Whether every carriage return of a text stands before a line feed. -/
def hasNoBareReturn : List Char → Bool
  | [] => true
  | '\r' :: '\n' :: rest => hasNoBareReturn rest
  | '\r' :: _ => false
  | _ :: rest => hasNoBareReturn rest

/-- The characters of a documentation text inside a string literal. -/
def documentationText : List Char → List Char
  | [] => []
  | '\x00' :: c :: rest =>
    (if '0' ≤ c && c ≤ '7' then "\\x00".toList else "\\0".toList) ++ documentationText (c :: rest)
  | c :: rest => Unicode.quotedChar c ++ documentationText rest

/-- The attribute that a documentation comment stands for. -/
def documentationTokens (inner : Bool) (text : List Char) : List Token :=
  [.mark '#' false] ++ (if inner then [.mark '!' false] else []) ++
    [.group .square [.name "doc", .mark '=' false,
      .literal (String.ofList ('"' :: documentationText text ++ ['"']))]]

/-- A token without brackets, or a bracket. -/
inductive Leaf where
  | token (token : Token)
  | opening (bracket : Bracket)
  | closing (bracket : Bracket)

/-- The text that was taken from the front of `s`. -/
def textTaken {α : Type} {s : List Char} (taken : Taken α s) : Taken String s :=
  taken.map fun (_, rest) => (String.ofList (s.take (s.length - rest.1.length)), rest)

/-- The words that cannot be turned into identifiers by `r#`. -/
def unescapable : List String := ["_", "super", "self", "Self", "crate"]

/-- An identifier, plain or behind `r#`. -/
def takeName (s : List Char) : Taken String s :=
  ((word ['r', '#'] s).andThen fun _ r _ => (takeWord r).asMaybe fun letters =>
    if unescapable.contains (String.ofList letters) then none
    else some ("r#" ++ String.ofList letters)).or fun _ =>
  if ['r', '#'].isPrefixOf s then none else (takeWord s).as String.ofList

/-- The beginnings of literals, at which no identifier stands. -/
def literalStarts : List String :=
  ["r\"", "r#\"", "r##", "b\"", "b'", "br\"", "br#", "c\"", "cr\"", "cr#"]

/-- A lifetime, behind which there is no further quote. -/
def takeLifetime (s : List Char) : Taken Token s :=
  (mark '\'' s).andThen fun _ r _ => (takeName r).bind fun (name, rest) =>
    let next := rest.1.head?
    if next == some '\'' || (next == some '#' && !(['r', '#'].isPrefixOf r)) then none
    else some (.lifetime ("'" ++ name), rest)

/-- A character of an operator. -/
def takeMark (s : List Char) : Taken Token s :=
  if startsMark s then
    (one (· != '\'') s).map fun (c, rest) => (.mark c (startsMark rest.1), rest)
  else none

/-- The leaves at the front of a text: those of a documentation comment, or a single one. -/
def takeLeaves (s : List Char) : Taken (List Leaf) s :=
  match documentation? s with
  | some inner =>
    (takeComment s).asMaybe fun text =>
      if hasNoBareReturn (text.drop 1) then
        some ((documentationTokens inner (text.drop 1)).map .token)
      else none
  | none =>
    ((one (fun _ => true) s).asMaybe fun c =>
      ((Bracket.ofOpening? c).map ([.opening ·])).or ((Bracket.ofClosing? c).map ([.closing ·]))).or
      fun _ =>
    ((textTaken (takeLiteral s)).as fun text => [.token (.literal text)]).or fun _ =>
    ((takeLifetime s).as fun lifetime => [.token lifetime]).or fun _ =>
    ((takeMark s).as fun mark => [.token mark]).or fun _ =>
    if literalStarts.any fun start => start.toList.isPrefixOf s then none
    else (takeName s).as fun name => [.token (.name name)]

/-- The leaves of a text. -/
def leavesOf? (s : List Char) : Option (List Leaf) :=
  let found := (many takeGapPiece s).finish fun _ r _ =>
    many (fun t => (takeLeaves t).finish fun leaves r₁ _ =>
      (many takeGapPiece r₁).finish fun _ r₂ _ => Kept.done leaves r₂) r
  if found.2.1.isEmpty then some found.1.flatten else none

/-- The tokens of leaves: `before` are the tokens since the last open bracket, in reverse, and
`outer` the brackets that are open, each with the tokens before it. -/
def nest? (before : List Token) (outer : List (Bracket × List Token)) :
    List Leaf → Option (List Token)
  | [] => if outer.isEmpty then some before.reverse else none
  | .token token :: rest => nest? (token :: before) outer rest
  | .opening bracket :: rest => nest? [] ((bracket, before) :: outer) rest
  | .closing bracket :: rest =>
    match outer with
    | [] => none
    | (opened, around) :: further =>
      if opened = bracket then nest? (.group bracket before.reverse :: around) further rest
      else none

/-- The tokens of a text, which may start with a byte order mark. -/
def tokensOf? (text : List Char) : Option (List Token) :=
  (leavesOf? (match text with
    | '\ufeff' :: rest => rest
    | _ => text)).bind (nest? [] [])

end PreferenceInjector.Derive
