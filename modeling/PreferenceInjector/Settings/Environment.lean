import PreferenceInjector.Settings.Toml.Number
import PreferenceInjector.Text.Pieces
import PreferenceInjector.Text.WhiteSpace

/-!
# Settings from environment variables

A variable whose name starts with `PREFGEN_`, in any case, sets the key that the rest of its name
spells; two underscores lead into a table. The text of the variable is read as a value where it
has the form of one: a truth value, a number, a quoted text, a list in brackets or a table in
braces. Any other text is a value as it stands.
-/

namespace PreferenceInjector.Settings.Environment

open Taken

/-- What the name of a variable that sets a key starts with. -/
def variableStem : String := "PREFGEN_"

/-- A capital letter of ASCII as its small one. -/
def lowerAscii (c : Char) : Char := if 'A' ≤ c ∧ c ≤ 'Z' then Char.ofNat (c.toNat + 32) else c

/-- A small letter of ASCII as its capital. -/
def upperAscii (c : Char) : Char := if 'a' ≤ c ∧ c ≤ 'z' then Char.ofNat (c.toNat - 32) else c

/-- A text with two underscores written as a dot, from left to right. -/
def underscoresToDots : List Char → List Char
  | '_' :: '_' :: rest => '.' :: underscoresToDots rest
  | c :: rest => c :: underscoresToDots rest
  | [] => []

/-- The key that a variable sets, if any: the parts of its name after the stem. -/
def keyOf? (name : String) : Option (List String) :=
  let name := trimmed name.toList
  let stem := variableStem.toList
  if (name.take stem.length).map lowerAscii = stem.map lowerAscii then
    let parts := pieces '.' ((trimmed (underscoresToDots (name.drop stem.length))).map lowerAscii)
    if parts.any (·.isEmpty) then none else some (parts.map String.ofList)
  else none

/-- Whether a character is one of the blanks around values. -/
def isBlank (c : Char) : Bool :=
  c == ' ' || c == '\t' || c == '\n' || c == '\r' || c == '\x0c'

/-- Whether a character ends a text without quotes. -/
def isSeparator (c : Char) : Bool :=
  c == ',' || c == '\x7b' || c == '\x7d' || c == '[' || c == ']'

/-- A text in double quotes. -/
def takeQuoted (s : List Char) : Taken String s :=
  ((mark '"' s).andThen fun _ r _ =>
    (many (fun t =>
      (one (fun c => Toml.isPlain c && c != '"' && c != '\\') t).or fun _ =>
        Toml.takeEscape t) r).andThen
      fun body r₁ _ => (mark '"' r₁).as fun _ => body).as String.ofList

/-- One character in single quotes. -/
def takeCharacter (s : List Char) : Taken String s :=
  (mark '\'' s).andThen fun _ r _ =>
  (one (fun _ => true) r).andThen fun c r₁ _ =>
  (mark '\'' r₁).as fun _ => String.ofList [c]

/-- A key and the equals sign, blanks being allowed around the key. -/
def takeKey (s : List Char) : Taken String s :=
  (run isBlank s).andThen fun _ r _ =>
  ((takeQuoted r).or fun _ =>
    (someRun Toml.isBareKey r).as String.ofList).andThen fun key r₁ _ =>
  (run isBlank r₁).andThen fun _ r₂ _ =>
  (mark '=' r₂).as fun _ => key

/-- The number that a text of digits denotes. -/
def digits? (text : List Char) : Option Nat :=
  if text.isEmpty || ! text.all Char.isDigit then none else some (Toml.decimalNumber text)

/-- A text without its sign, and whether that is a minus. -/
def signed (text : List Char) : Bool × List Char :=
  match text with
  | '-' :: rest => (true, rest)
  | '+' :: rest => (false, rest)
  | _ => (false, text)

/-- The decimal number that a text denotes: digits with a point among them or at one of their
ends, and an exponent if there is one. -/
def decimal? (text : List Char) : Option Binary64 :=
  let (negative, body) := signed text
  let mantissa := body.takeWhile fun c => c != 'e' && c != 'E'
  let exponent? : Option Int :=
    match body.drop mantissa.length with
    | [] => some 0
    | _ :: rest =>
      let (minus, ds) := signed rest
      (digits? ds).map fun n => if minus then -(n : Int) else n
  match pieces '.' mantissa, exponent? with
  | [whole, fraction], some exponent =>
    (digits? (whole ++ fraction)).map fun n =>
      Binary64.ofDecimal negative n (exponent - fraction.length)
  | _, _ => none

/-- A text without quotes: a number if it denotes one that fits into 64 bits, otherwise itself. -/
def plain (text : List Char) : Scalar :=
  match if text.contains '.' then decimal? text else none with
  | some number => .decimal number
  | none =>
    let (negative, ds) := signed text
    match digits? ds with
    | some n =>
      if negative then
        if n ≤ Nat.pow 2 63 then .signed (-(n : Int)) else .text (String.ofList text)
      else if n < Nat.pow 2 64 then .unsigned n
      else .text (String.ofList text)
    | none => .text (String.ofList text)

/-- A value taken off the front of a text, possibly an empty one, or nothing if the text there is
not well formed. -/
abbrev Tried (α : Type) (s : List Char) :=
  Option (α × { rest : List Char // rest.length ≤ s.length })

/-- An outcome with another value, in a longer text. -/
def Tried.widen {α β : Type} {r s : List Char} (tried : Tried α r) (h : r.length ≤ s.length)
    (f : α → β) : Tried β s :=
  tried.map fun (a, ⟨rest, shorter⟩) => (f a, ⟨rest, length_le_trans shorter h⟩)

/-- An outcome without the blanks after it. -/
def Tried.spaced {α : Type} {s : List Char} (tried : Tried α s) : Tried α s :=
  tried.map fun outcome => Kept.finish outcome fun a r _ =>
    (run isBlank r).finish fun _ r₁ _ => Kept.done a r₁

/-- An outcome that took something as one that need not have. -/
def Tried.ofTaken {α : Type} {s : List Char} (taken : Taken α s) : Tried α s :=
  taken.map fun (a, ⟨rest, shorter⟩) => (a, ⟨rest, length_le_of_lt shorter⟩)

/-- A value that has no brackets or braces. -/
def takeScalar (s : List Char) : Tried Scalar s :=
  match s.head? with
  | some '"' => Tried.ofTaken ((takeQuoted s).as .text)
  | some '\'' => Tried.ofTaken ((takeCharacter s).as .text)
  | _ =>
    let flag : Taken Scalar s :=
      ((word ['t', 'r', 'u', 'e'] s).as fun _ => Scalar.flag true).or fun _ =>
        (word ['f', 'a', 'l', 's', 'e'] s).as fun _ => Scalar.flag false
    match flag with
    | some _ => Tried.ofTaken flag
    | none => some ((run (! isSeparator ·) s).finish fun text r _ =>
        Kept.done (plain (trimmed text)) r)

mutual

/-- A value. -/
def takeValue (s : List Char) : Tried Value s :=
  match run isBlank s with
  | (_, ⟨r, hr⟩) =>
    Tried.spaced <|
      match mark '[' r with
      | some (_, ⟨r₁, h⟩) => Tried.widen (takeItems r₁) (length_le_of_lt_of_le h hr) .list
      | none =>
        match mark '\x7b' r with
        | some (_, ⟨r₁, h⟩) => Tried.widen (takeEntries r₁) (length_le_of_lt_of_le h hr) .table
        | none => Tried.widen (takeScalar r) hr .scalar
termination_by 2 * s.length
decreasing_by all_goals omega

/-- The values of a list after its opening bracket, the closing bracket included. -/
def takeItems (s : List Char) : Tried (List Value) s :=
  match mark ']' s with
  | some (_, ⟨rest, h⟩) => some ([], ⟨rest, length_le_of_lt h⟩)
  | none =>
    match takeValue s with
    | none => none
    | some (value, ⟨r, hr⟩) =>
      match mark ',' r with
      | some (_, ⟨r₁, h⟩) =>
        Tried.widen (takeItems r₁) (length_le_of_lt_of_le h hr) (value :: ·)
      | none => Tried.widen (.ofTaken (mark ']' r)) hr fun _ => [value]
termination_by 2 * s.length + 1
decreasing_by all_goals omega

/-- The entries of a table after its opening brace, the closing brace included; of two entries
with the same key the later one counts. -/
def takeEntries (s : List Char) : Tried (List (String × Value)) s :=
  match mark '\x7d' s with
  | some (_, ⟨rest, h⟩) => some ([], ⟨rest, length_le_of_lt h⟩)
  | none =>
    match takeKey s with
    | none => none
    | some (key, ⟨t, ht⟩) =>
      let add := fun value (entries : List (String × Value)) =>
        upsert key (fun later => later.getD value) entries
      match takeValue t with
      | none => none
      | some (value, ⟨r, hr⟩) =>
        match mark ',' r with
        | some (_, ⟨r₁, h⟩) =>
          Tried.widen (takeEntries r₁) (by omega) (add value)
        | none => Tried.widen (.ofTaken (mark '\x7d' r)) (by omega) fun _ => add value []
termination_by 2 * s.length + 1
decreasing_by all_goals omega

end

/-- The value of a variable: what its whole text denotes, or the text as it stands. -/
def valueOf (text : String) : Value :=
  match takeValue text.toList with
  | some (value, ⟨[], _⟩) => value
  | _ => .scalar (.text text)

/-- A value under a key of several parts, as a table. -/
def nest (value : Value) : List String → Value
  | [] => value
  | key :: rest => .table [(key, nest value rest)]

/-- The settings of all variables, later ones over earlier ones. -/
def read (environment : List (String × String)) : List (String × Setting) :=
  environment.foldl (fun earlier (name, text) =>
    match keyOf? name with
    | some (key :: rest) =>
      Setting.overEntries [(key, (nest (valueOf text) rest).from .environment)] earlier
    | _ => earlier) []

end PreferenceInjector.Settings.Environment
