import PreferenceInjector.Text.Taken
import PreferenceInjector.Unicode.Identifier

/-!
# Literals

The literals that can stand in a type definition: strings, byte strings, strings that end in a
zero byte, characters, bytes and numbers, each possibly with a suffix. Strings are cooked, with
escapes, or raw, between as many hash signs as there are before them. A string literal has a
value, the characters it stands for.
-/

namespace PreferenceInjector.Derive

open Taken

/-- Whether an identifier can start with a character. -/
def startsName (c : Char) : Bool := c == '_' || Unicode.isIdStart c

/-- Whether an identifier can go on with a character. -/
def continuesName (c : Char) : Bool := Unicode.isIdContinue c

/-- The letters of an identifier. -/
def takeWord (s : List Char) : Taken (List Char) s :=
  (one startsName s).finish fun c r _ =>
  (run continuesName r).finish fun cs r₁ _ => Kept.done (c :: cs) r₁

/-- The suffix of a literal, which may be missing. -/
def takeSuffix (s : List Char) : Kept (List Char) s :=
  let suffix := maybe (takeWord s)
  (suffix.1.getD [], suffix.2)

/-- The value of a hexadecimal digit. -/
def hexDigit? (c : Char) : Option Nat :=
  if '0' ≤ c && c ≤ '9' then some (c.toNat - '0'.toNat)
  else if 'a' ≤ c && c ≤ 'f' then some (c.toNat - 'a'.toNat + 10)
  else if 'A' ≤ c && c ≤ 'F' then some (c.toNat - 'A'.toNat + 10)
  else none

/-- The number that hexadecimal digits stand for. -/
def hexValue (digits : List Char) : Nat :=
  digits.foldl (fun n c => 16 * n + (hexDigit? c).getD 0) 0

/-- What the characters of a quoted literal may be. -/
structure Quoting where
  /-- The codes that two hexadecimal digits after `\x` may have. -/
  coded : Nat → Bool
  /-- The codes that may be written in braces after `\u`, if that is an escape at all. -/
  braced : Nat → Bool
  /-- Whether `\0` is an escape. -/
  zero : Bool
  /-- The characters that stand for themselves. -/
  plain : Char → Bool

/-- The rules of strings and characters. -/
def Quoting.text : Quoting := ⟨(· < 128), fun _ => true, true, fun _ => true⟩

/-- The rules of byte strings and bytes. -/
def Quoting.bytes : Quoting := ⟨fun _ => true, fun _ => false, true, (·.toNat < 128)⟩

/-- The rules of strings that end in a zero byte, which have no other zero byte. -/
def Quoting.terminated : Quoting := ⟨(· != 0), (· != 0), false, (· != '\x00')⟩

/-- The character of a one-letter escape. -/
def escapedLetter? (quoting : Quoting) : Char → Option Char
  | 'n' => some '\n'
  | 'r' => some '\r'
  | 't' => some '\t'
  | '\\' => some '\\'
  | '\'' => some '\''
  | '"' => some '"'
  | '0' => if quoting.zero then some '\x00' else none
  | _ => none

/-- The character of a code in braces, of at most six digits that may have low lines between. -/
def bracedCode? (quoting : Quoting) (digits : List Char) : Option Char :=
  let value := hexValue (digits.filter (· != '_'))
  if (digits.filter (· != '_')).length ≤ 6 && quoting.braced value && decide value.isValidChar then
    some (Char.ofNat value)
  else none

/-- What follows the backslash of an escape. -/
def takeEscape (quoting : Quoting) (s : List Char) : Taken Char s :=
  let hex := one fun c => (hexDigit? c).isSome
  (((one (fun _ => true) s).asMaybe (escapedLetter? quoting)).or fun _ =>
    ((mark 'x' s).andThen fun _ r _ =>
      (hex r).andThen fun a r₁ _ =>
      (hex r₁).as fun b => hexValue [a, b]).asMaybe fun code =>
        if quoting.coded code then some (Char.ofNat code) else none).or fun _ =>
    ((mark 'u' s).andThen fun _ r _ =>
      (mark '\x7b' r).andThen fun _ r₁ _ =>
      (hex r₁).andThen fun first r₂ _ =>
      (run (fun c => c == '_' || (hexDigit? c).isSome) r₂).andThen fun more r₃ _ =>
      (mark '\x7d' r₃).as fun _ => first :: more).asMaybe (bracedCode? quoting)

/-- The end of a line with the blanks and line ends that follow it. -/
def takeContinuation (s : List Char) : Taken Unit s :=
  (lineEnd s).finish fun _ r _ =>
  (many (fun t => ((one (fun c => c == ' ' || c == '\t') t).as fun _ => ()).or fun _ =>
    lineEnd t) r).finish fun _ r₁ _ => Kept.done () r₁

/-- One piece of a cooked string and the characters it stands for: an escape, a line end that is
escaped away, a line end, or a character other than the closing quote. -/
def takeCooked (quoting : Quoting) (s : List Char) : Taken (List Char) s :=
  (((mark '\\' s).andThen fun _ r _ =>
    ((takeEscape quoting r).as ([·])).or fun _ => (takeContinuation r).as fun _ => []).or fun _ =>
    (word ['\r', '\n'] s).as fun _ => ['\n']).or fun _ =>
    (one (fun c => c != '\\' && c != '\r' && c != '"' && quoting.plain c) s).as ([·])

/-- A cooked string after its opening quote. -/
def takeCookedRest (quoting : Quoting) (s : List Char) : Taken (List Char) s :=
  (many (takeCooked quoting) s).andThen fun pieces r _ => (mark '"' r).as fun _ => pieces.flatten

/-- The closing quote of a raw string with its hash signs. -/
def takeRawEnd (hashes : Nat) (s : List Char) : Taken Unit s :=
  word ('"' :: List.replicate hashes '#') s

/-- One piece of a raw string: a line end or a character other than the closing quote. -/
def takeRaw (quoting : Quoting) (hashes : Nat) (s : List Char) : Taken (List Char) s :=
  match takeRawEnd hashes s with
  | some _ => none
  | none =>
    ((word ['\r', '\n'] s).as fun _ => ['\r', '\n']).or fun _ =>
      (one (fun c => c != '\r' && quoting.plain c) s).as ([·])

/-- A raw string after the letter that starts it, with at most 255 hash signs. -/
def takeRawRest (quoting : Quoting) (s : List Char) : Taken (List Char) s :=
  (run (· == '#') s).andThen fun hashes r _ =>
  (mark '"' r).andThen fun _ r₁ _ =>
    if hashes.length ≤ 255 then
      (many (takeRaw quoting hashes.length) r₁).andThen fun pieces r₂ _ =>
      (takeRawEnd hashes.length r₂).as fun _ => pieces.flatten
    else none

/-- A string of one kind, cooked or raw, after the letters of its kind; its value is what the
pieces stand for. -/
def takeStringOf (quoting : Quoting) (kind : List Char) (s : List Char) : Taken (List Char) s :=
  ((word (kind ++ ['"']) s).andThen fun _ r _ => takeCookedRest quoting r).or fun _ =>
    (word (kind ++ ['r']) s).andThen fun _ r _ => takeRawRest quoting r

/-- A string literal without its suffix. -/
def takeString (s : List Char) : Taken (List Char) s := takeStringOf .text [] s

/-- A quoted character after its opening quote. -/
def takeQuotedRest (quoting : Quoting) (s : List Char) : Taken Unit s :=
  (((mark '\\' s).andThen fun _ r _ => takeEscape quoting r).or fun _ =>
    one (fun c => c != '\\' && quoting.plain c) s).andThen fun _ r _ =>
  (mark '\'' r).as fun _ => ()

/-- The characters of a number to a base: its digits, with low lines, of which one at least is a
digit. A decimal digit outside the base is an error. -/
def takeDigits (base : Nat) (s : List Char) : Taken Unit s :=
  let isDigit (c : Char) : Bool := (hexDigit? c).any (· < base)
  (someRun (fun c => c == '_' || isDigit c) s).bind fun (digits, rest) =>
    if digits.any isDigit && !(rest.1.head?.any Char.isDigit) then some ((), rest) else none

/-- A whole number without its suffix. -/
def takeWhole (s : List Char) : Taken Unit s :=
  let based (letter : Char) (base : Nat) : Taken Unit s :=
    (word ['0', letter] s).andThen fun _ r _ => takeDigits base r
  if ['0', 'x'].isPrefixOf s then based 'x' 16
  else if ['0', 'o'].isPrefixOf s then based 'o' 8
  else if ['0', 'b'].isPrefixOf s then based 'b' 2
  else if ['_'].isPrefixOf s then none
  else takeDigits 10 s

/-- The exponent of a number: low lines, a sign and digits after its letter. -/
def takeExponent (s : List Char) : Taken Unit s :=
  (one (fun c => c == 'e' || c == 'E') s).andThen fun _ r _ =>
  (run (· == '_') r).andThen fun _ r₁ _ =>
  (maybe (one (fun c => c == '+' || c == '-') r₁)).andThen fun _ r₂ _ =>
  (run (· == '_') r₂).andThen fun _ r₃ _ =>
  (one Char.isDigit r₃).finish fun _ r₄ _ =>
  (run (fun c => c.isDigit || c == '_') r₄).finish fun _ r₅ _ => Kept.done () r₅

/-- A decimal point, which is not that of a range or of a member. -/
def takePoint (s : List Char) : Taken Unit s :=
  (mark '.' s).bind fun (_, rest) =>
    if rest.1.head?.any fun c => c == '.' || startsName c then none else some ((), rest)

/-- A decimal fraction or a number with an exponent, without its suffix. -/
def takeFraction (s : List Char) : Taken Unit s :=
  let decimals := run fun c => c.isDigit || c == '_'
  (one Char.isDigit s).andThen fun _ r _ =>
  (decimals r).andThen fun _ r₁ _ =>
    ((takePoint r₁).finish fun _ r₂ _ =>
      (decimals r₂).finish fun _ r₃ _ =>
      (maybe (takeExponent r₃)).finish fun _ r₄ _ => Kept.done () r₄).or fun _ =>
    takeExponent r₁

/-- A number with its suffix, behind which no identifier goes on. -/
def takeNumber (s : List Char) : Taken Unit s :=
  let ended (number : Taken Unit s) : Taken Unit s :=
    (number.finish fun _ r _ => takeSuffix r).bind fun (_, rest) =>
      if rest.1.head?.any continuesName then none else some ((), rest)
  (ended (takeFraction s)).or fun _ => ended (takeWhole s)

/-- A literal with its suffix. -/
def takeLiteral (s : List Char) : Taken Unit s :=
  let withSuffix {α : Type} (literal : Taken α s) : Taken Unit s :=
    literal.finish fun _ r _ => ((), (takeSuffix r).2)
  (withSuffix (takeString s)).or fun _ =>
  (withSuffix (takeStringOf .bytes ['b'] s)).or fun _ =>
  (withSuffix (takeStringOf .terminated ['c'] s)).or fun _ =>
  (withSuffix ((word ['b', '\''] s).andThen fun _ r _ => takeQuotedRest .bytes r)).or fun _ =>
  (withSuffix ((mark '\'' s).andThen fun _ r _ => takeQuotedRest .text r)).or fun _ =>
  takeNumber s

/-- The value of a string literal and its suffix; `none` for the text of another literal. -/
def stringValue? (literal : String) : Option (List Char × List Char) :=
  (takeString literal.toList).map fun (value, rest) => (value, rest.1)

end PreferenceInjector.Derive
