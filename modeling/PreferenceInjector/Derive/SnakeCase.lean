import PreferenceInjector.Unicode.Case

/-!
# Snake case

A name in mixed case is written in lower case with low lines between its words. A capital starts a
word if it follows a small letter or a digit, or if it follows a capital and precedes a small
letter; behind a low line no further one is needed.
-/

namespace PreferenceInjector.Derive

/-- Whether a capital between two characters starts a word inside a name. -/
def startsWord (before after : Option Char) : Bool :=
  match before with
  | none => false
  | some c =>
    if c = '_' then false
    else if Unicode.isLowercase c || c.isDigit then true
    else Unicode.isUppercase c && after.any Unicode.isLowercase

/-- The snake case of characters that follow `before`. -/
def snakeCaseAfter (before : Option Char) : List Char → List Char
  | [] => []
  | c :: rest =>
    (if Unicode.isUppercase c then
      (if startsWord before rest.head? then ['_'] else []) ++ Unicode.lowercase c
    else [c]) ++ snakeCaseAfter (some c) rest

/-- A name in snake case. -/
def snakeCase (name : String) : String := String.ofList (snakeCaseAfter none name.toList)

end PreferenceInjector.Derive
