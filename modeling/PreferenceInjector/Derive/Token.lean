/-!
# Tokens of a type definition

The definition of a type, for which an injector is derived, is a sequence of tokens; what stands
in brackets is one token. A mark is a single character, and it is joint when the next mark
follows it without a blank, so that an operator of several characters is a run of marks of which
all but the last are joint. Tokens are written with one blank between them, except behind a joint
mark and inside round and square brackets.
-/

namespace PreferenceInjector.Derive

/-- The kinds of brackets. -/
inductive Bracket where
  | round
  | square
  | curly
  deriving DecidableEq, Repr

/-- The kind of bracket that a character opens. -/
def Bracket.ofOpening? : Char → Option Bracket
  | '(' => some .round
  | '[' => some .square
  | '\x7b' => some .curly
  | _ => none

/-- The kind of bracket that a character closes. -/
def Bracket.ofClosing? : Char → Option Bracket
  | ')' => some .round
  | ']' => some .square
  | '\x7d' => some .curly
  | _ => none

/-- A token. -/
inductive Token where
  /-- An identifier or a keyword, as it is spelled. -/
  | name (text : String)
  /-- A lifetime, with its quote. -/
  | lifetime (text : String)
  /-- A literal, as it is spelled. -/
  | literal (text : String)
  /-- One character of an operator; a joint one is followed by more of it. -/
  | mark (character : Char) (joint : Bool)
  /-- Tokens in brackets. -/
  | group (bracket : Bracket) (content : List Token)
  deriving Repr

mutual

/-- Whether two tokens are the same. -/
def Token.decEq : (token other : Token) → Decidable (token = other)
  | .name text, .name text' => decidable_of_iff (text = text') (by simp)
  | .lifetime text, .lifetime text' => decidable_of_iff (text = text') (by simp)
  | .literal text, .literal text' => decidable_of_iff (text = text') (by simp)
  | .mark character joint, .mark character' joint' =>
    decidable_of_iff (character = character' ∧ joint = joint') (by simp)
  | .group bracket content, .group bracket' content' =>
    match decEqTokens content content' with
    | .isTrue hcontent => decidable_of_iff (bracket = bracket') (by simp [hcontent])
    | .isFalse hcontent => .isFalse (by simp [hcontent])
  | .name _, .lifetime _ | .name _, .literal _ | .name _, .mark .. | .name _, .group ..
  | .lifetime _, .name _ | .lifetime _, .literal _ | .lifetime _, .mark .. | .lifetime _, .group ..
  | .literal _, .name _ | .literal _, .lifetime _ | .literal _, .mark .. | .literal _, .group ..
  | .mark .., .name _ | .mark .., .lifetime _ | .mark .., .literal _ | .mark .., .group ..
  | .group .., .name _ | .group .., .lifetime _ | .group .., .literal _ | .group .., .mark .. =>
    .isFalse nofun

/-- Whether two sequences of tokens are the same. -/
def decEqTokens : (tokens others : List Token) → Decidable (tokens = others)
  | [], [] => .isTrue rfl
  | [], _ :: _ | _ :: _, [] => .isFalse nofun
  | token :: tokens, other :: others =>
    match token.decEq other, decEqTokens tokens others with
    | .isTrue htoken, .isTrue htokens => .isTrue (by rw [htoken, htokens])
    | .isFalse htoken, _ => .isFalse (by simp [htoken])
    | _, .isFalse htokens => .isFalse (by simp [htokens])

end

instance : DecidableEq Token := Token.decEq

/-- Whether no blank is written behind a token. -/
def Token.isJoint : Token → Bool
  | .mark _ joint => joint
  | _ => false

/-- Whether a token is a lifetime. -/
def Token.isLifetime : Token → Bool
  | .lifetime _ => true
  | _ => false

/-- The text of a group with the text of its content; only curly brackets stand off. -/
def Bracket.enclose (bracket : Bracket) (content : String) : String :=
  match bracket with
  | .round => "(" ++ content ++ ")"
  | .square => "[" ++ content ++ "]"
  | .curly => if content.isEmpty then "\x7b \x7d" else "\x7b " ++ content ++ " \x7d"

mutual

/-- The text of a token. -/
def Token.text : Token → String
  | .name text => text
  | .lifetime text => text
  | .literal text => text
  | .mark character _ => character.toString
  | .group bracket content => bracket.enclose (textOf content)

/-- The text of a sequence of tokens. -/
def textOf : List Token → String
  | [] => ""
  | [token] => token.text
  | token :: next :: rest =>
    token.text ++ (if token.isJoint then "" else " ") ++ textOf (next :: rest)

end

mutual

/-- The number of tokens in a token, itself included. -/
def Token.count : Token → Nat
  | .group _ content => countOf content + 1
  | _ => 1

/-- The number of tokens in a sequence, those in brackets included. -/
def countOf : List Token → Nat
  | [] => 0
  | token :: rest => token.count + countOf rest

end

/-- The marks of an operator. -/
def marksOf : List Char → List Token
  | [] => []
  | [c] => [.mark c false]
  | c :: rest => .mark c true :: marksOf rest

/-- An operator. -/
def operator (symbol : String) : List Token := marksOf symbol.toList

/-- The words that are no identifiers. -/
def keywords : List String :=
  ["_", "abstract", "as", "async", "await", "become", "box", "break", "const", "continue", "crate",
    "do", "dyn", "else", "enum", "extern", "false", "final", "fn", "for", "if", "impl", "in", "let",
    "loop", "macro", "match", "mod", "move", "mut", "override", "priv", "pub", "ref", "return",
    "Self", "self", "static", "struct", "super", "trait", "true", "try", "type", "typeof", "unsafe",
    "unsized", "use", "virtual", "where", "while", "yield"]

/-- Whether the text of a name makes it a keyword. -/
def isKeyword (text : String) : Bool := keywords.contains text

end PreferenceInjector.Derive
