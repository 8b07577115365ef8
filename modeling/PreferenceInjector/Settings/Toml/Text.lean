import PreferenceInjector.Text.Taken

/-!
# Texts and keys of TOML documents

Quoted texts on one line and over several lines, with and without escapes, and the keys. A line
end is a line feed, possibly after a carriage return; both are the line feed in the value of a
text. Control characters other than the tab must be written as escapes.
-/

namespace PreferenceInjector.Settings.Toml

open Taken

/-- Whether a character is a blank inside a line. -/
def isBlank (c : Char) : Bool := c == ' ' || c == '\t'

/-- Whether a character can stand for itself, the marks of the particular place aside. -/
def isPlain (c : Char) : Bool := c == '\t' || (0x20 ≤ c.toNat && c.toNat != 0x7F)

/-- The blanks at the front. -/
def takeBlanks (s : List Char) : Kept Unit s :=
  (run isBlank s).finish fun _ r _ => Kept.done () r

/-- A comment up to the end of its line. -/
def takeComment (s : List Char) : Taken Unit s :=
  (mark '#' s).finish fun _ r _ => (run isPlain r).finish fun _ r₁ _ => Kept.done () r₁

/-- Blanks, line ends and comments. -/
def takeLayout (s : List Char) : Kept Unit s :=
  (many (fun r =>
    ((one isBlank r).as fun _ => ()).or fun _ =>
      (lineEnd r).or fun _ => takeComment r) s).finish fun _ r _ => Kept.done () r

/-- The value of a hexadecimal digit. -/
def hexValue? (c : Char) : Option Nat :=
  if c.isDigit then some (c.toNat - '0'.toNat)
  else if 'a' ≤ c ∧ c ≤ 'f' then some (c.toNat - 'a'.toNat + 10)
  else if 'A' ≤ c ∧ c ≤ 'F' then some (c.toNat - 'A'.toNat + 10)
  else none

/-- The number that hexadecimal digits denote. -/
def hexNumber (digits : List Char) : Nat :=
  digits.foldl (fun n c => 16 * n + (hexValue? c).getD 0) 0

/-- The character with a code, if there is one. -/
def charOfCode? (n : Nat) : Option Char :=
  if h : n.isValidChar then some (Char.ofNatAux n h) else none

/-- The character that a letter after a backslash stands for. -/
def escaped? : Char → Option Char
  | 'b' => some '\x08'
  | 't' => some '\t'
  | 'n' => some '\n'
  | 'f' => some '\x0c'
  | 'r' => some '\r'
  | '"' => some '"'
  | '\\' => some '\\'
  | _ => none

/-- The character that `n + 1` hexadecimal digits stand for. -/
def takeCode (n : Nat) (s : List Char) : Taken Char s :=
  (exactly (fun c => (hexValue? c).isSome) n s).asMaybe fun digits => charOfCode? (hexNumber digits)

/-- An escape with its backslash. -/
def takeEscape (s : List Char) : Taken Char s :=
  (mark '\\' s).andThen fun _ r _ =>
    ((one (fun _ => true) r).asMaybe escaped?).or fun _ =>
      ((mark 'u' r).andThen fun _ r₁ _ => takeCode 3 r₁).or fun _ =>
        (mark 'U' r).andThen fun _ r₁ _ => takeCode 7 r₁

/-- A text in double quotes on one line. -/
def takeBasic (s : List Char) : Taken (List Char) s :=
  (mark '"' s).andThen fun _ r _ =>
  (many (fun t =>
    (one (fun c => isPlain c && c != '"' && c != '\\') t).or fun _ => takeEscape t) r).andThen
    fun body r₁ _ => (mark '"' r₁).as fun _ => body

/-- A text in single quotes on one line, which has no escapes. -/
def takeLiteral (s : List Char) : Taken (List Char) s :=
  (mark '\'' s).andThen fun _ r _ =>
  (run (fun c => isPlain c && c != '\'') r).andThen fun body r₁ _ =>
  (mark '\'' r₁).as fun _ => body

/-- One or two quotes that do not begin the end of a text over several lines: those in front of
another character. -/
def takeInnerQuotes (quote : Char) (s : List Char) : Taken (List Char) s :=
  match s with
  | a :: b :: c :: rest =>
    if a = quote ∧ b = quote ∧ c ≠ quote then some ([a, b], ⟨c :: rest, by simp⟩)
    else if a = quote ∧ b ≠ quote then some ([a], ⟨b :: c :: rest, by simp⟩)
    else none
  | a :: b :: [] =>
    if a = quote ∧ b ≠ quote then some ([a], ⟨[b], by simp⟩) else none
  | _ => none

/-- The end of a text over several lines, with up to two quotes in front that belong to it. -/
def takeClosing (quote : Char) (s : List Char) : Taken (List Char) s :=
  let three := [quote, quote, quote]
  ((word (quote :: quote :: three) s).as fun _ => [quote, quote]).or fun _ =>
    ((word (quote :: three) s).as fun _ => [quote]).or fun _ =>
      (word three s).as fun _ => []

/-- A backslash at the end of a line, with all blanks and line ends up to the next character. -/
def takeContinuation (s : List Char) : Taken Unit s :=
  (mark '\\' s).andThen fun _ r _ =>
  (takeBlanks r).andThen fun _ r₁ _ =>
  (lineEnd r₁).finish fun _ r₂ _ =>
  (many (fun t => ((one isBlank t).as fun _ => ()).or fun _ => lineEnd t) r₂).finish
    fun _ r₃ _ => Kept.done () r₃

/-- A text over several lines whose pieces `piece` takes; a line end right after the opening
quotes is not part of it. -/
def takeLong (quote : Char) (piece : (s : List Char) → Taken (List Char) s) (s : List Char) :
    Taken (List Char) s :=
  (word [quote, quote, quote] s).andThen fun _ r _ =>
  (maybe (lineEnd r)).andThen fun _ r₁ _ =>
  (many (fun t =>
    (piece t).or fun _ =>
      ((lineEnd t).as fun _ => ['\n']).or fun _ => takeInnerQuotes quote t) r₁).andThen
    fun body r₂ _ => (takeClosing quote r₂).as fun last => body.flatten ++ last

/-- A text in three double quotes. -/
def takeLongBasic : (s : List Char) → Taken (List Char) s :=
  takeLong '"' fun t =>
    ((one (fun c => isPlain c && c != '"' && c != '\\') t).as ([·])).or fun _ =>
      ((takeContinuation t).as fun _ => []).or fun _ => (takeEscape t).as ([·])

/-- A text in three single quotes. -/
def takeLongLiteral : (s : List Char) → Taken (List Char) s :=
  takeLong '\'' fun t => (one (fun c => isPlain c && c != '\'') t).as ([·])

/-- Any text. -/
def takeText (s : List Char) : Taken String s :=
  ((takeLongBasic s).or fun _ => (takeBasic s).or fun _ =>
    (takeLongLiteral s).or fun _ => takeLiteral s).as String.ofList

/-- Whether a character can stand in a key without quotes. -/
def isBareKey (c : Char) : Bool := c.isAlphanum || c == '_' || c == '-'

/-- A key without dots outside of quotes. -/
def takeSimpleKey (s : List Char) : Taken String s :=
  ((takeBasic s).or fun _ => (takeLiteral s).or fun _ => someRun isBareKey s).as
    String.ofList

/-- A simple key among blanks. -/
def takeKeyPart (s : List Char) : Taken String s :=
  (takeBlanks s).andThen fun _ r _ =>
  (takeSimpleKey r).finish fun key r₁ _ =>
  (takeBlanks r₁).finish fun _ r₂ _ => Kept.done key r₂

/-- How many parts a key, and how many levels a value, must stay below. -/
def nestingLimit : Nat := 80

/-- A key: simple keys with dots between them. -/
def takeKey (s : List Char) : Taken (List String) s :=
  ((takeKeyPart s).finish fun first r _ =>
    (many (fun t => (mark '.' t).andThen fun _ t₁ _ => takeKeyPart t₁) r).finish fun more r₁ _ =>
    Kept.done (first :: more) r₁).asMaybe fun key =>
      if key.length < nestingLimit then some key else none

end PreferenceInjector.Settings.Toml
