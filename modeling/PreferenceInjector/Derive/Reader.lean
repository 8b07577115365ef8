import PreferenceInjector.Derive.Token

/-!
# Reading off tokens

A reader takes something off the front of a sequence of tokens or fails. A phrase is a reader
whose value is the tokens it has read, the way they are written out again: an operator that was
read as one is written as one, and one that was read mark by mark is written with blanks. Choices
take the first alternative that succeeds, and repetitions take as much as they can.
-/

namespace PreferenceInjector.Derive

/-- Takes a value off the front of a sequence of tokens, if it stands there. -/
abbrev Reader (α : Type) := StateT (List Token) Option α

/-- A reader of tokens that are only passed on. -/
abbrev Phrase := Reader (List Token)

namespace Reader

variable {α : Type}

/-- Nothing, at the end of the tokens. -/
def atEnd : Reader Unit := fun tokens => if tokens.isEmpty then some ((), tokens) else none

/-- Whether a phrase stands next; it is not taken. -/
def sees (phrase : Phrase) : Reader Bool := fun tokens => some ((phrase tokens).isSome, tokens)

/-- At most `n` values that follow each other. -/
def upTo (read : Reader α) : Nat → Reader (List α)
  | 0 => pure []
  | n + 1 => fun tokens =>
    match read tokens with
    | none => some ([], tokens)
    | some (a, rest) => (upTo read n rest).map fun (as, last) => (a :: as, last)

/-- As many values as follow each other. -/
def many (read : Reader α) : Reader (List α) := fun tokens => upTo read tokens.length tokens

/-- What the content of a group stands for; the content has to be read to its end. -/
def inside (bracket : Bracket) (read : Reader α) : Reader α
  | .group found content :: rest =>
    if found = bracket then
      match read content with
      | some (a, []) => some (a, rest)
      | _ => none
    else none
  | _ => none

/-- The marks of an operator at the front of a sequence of tokens: all but the last are joint. -/
def dropMarks? : List Char → List Token → Option (List Token)
  | [], tokens => some tokens
  | [c], .mark d _ :: rest => if c = d then some rest else none
  | c :: cs, .mark d true :: rest => if c = d then dropMarks? cs rest else none
  | _, _ => none

/-- An operator. -/
def mark (symbol : String) : Phrase := fun tokens =>
  (dropMarks? symbol.toList tokens).map fun rest => (operator symbol, rest)

/-- Values with commas between them and possibly after the last, up to the end of the tokens. -/
def commaSeparated (read : Reader α) : Reader (List α) := do
  let values ← many do
    let value ← read
    discard (mark ",") <|> atEnd
    pure value
  atEnd
  pure values

/-- Values up to a closing phrase, each with whether a comma follows it; only the last one may do
without. -/
def listed (read : Reader α) (closing : Phrase) : Reader (List (α × Bool)) :=
  many do
    let value ← read
    let comma ← (mark "," *> pure true) <|> pure false
    let closes ← sees closing
    if comma || closes then pure (value, comma) else failure

end Reader

namespace Phrase

/-- No tokens. -/
def empty : Phrase := pure []

/-- One phrase after another. -/
def all : List Phrase → Phrase
  | [] => empty
  | phrase :: rest => do return (← phrase) ++ (← all rest)

/-- The first of some phrases that stands next. -/
def first : List Phrase → Phrase
  | [] => failure
  | phrase :: rest => phrase <|> first rest

/-- The phrase, if it stands next. -/
def maybe (phrase : Phrase) : Phrase := phrase <|> empty

/-- The phrase as often as it stands next. -/
def many (phrase : Phrase) : Phrase := do return (← Reader.many phrase).flatten

/-- No tokens, if the phrase does not stand next. -/
def absent (phrase : Phrase) : Phrase := do if ← Reader.sees phrase then failure else pure []

/-- No tokens, if the phrase stands next. -/
def present (phrase : Phrase) : Phrase := do if ← Reader.sees phrase then pure [] else failure

/-- The second phrase where the first one stands next, and otherwise the third. -/
def after (sign phrase : Phrase) (otherwise : Phrase := empty) : Phrase := do
  if ← Reader.sees sign then phrase else otherwise

/-- What has no effect on what is written. -/
def unwritten (phrase : Phrase) : Phrase := do
  discard phrase
  pure []

/-- No tokens, at the end. -/
def atEnd : Phrase := do
  Reader.atEnd
  pure []

/-- A fixed name. -/
def word (text : String) : Phrase
  | .name found :: rest => if found = text then some ([.name found], rest) else none
  | _ => none

/-- An identifier. -/
def identifier : Phrase
  | .name found :: rest => if isKeyword found then none else some ([.name found], rest)
  | _ => none

/-- An operator. -/
def mark (symbol : String) : Phrase := Reader.mark symbol

/-- One of some operators. -/
def anyMark (symbols : List String) : Phrase := first (symbols.map mark)

/-- A lifetime. -/
def lifetime : Phrase
  | .lifetime found :: rest => some ([.lifetime found], rest)
  | _ => none

/-- A literal. -/
def literal : Phrase
  | .literal found :: rest => some ([.literal found], rest)
  | _ => none

/-- A literal number behind a minus sign, which are written without a blank. -/
def negativeNumber : Phrase
  | .mark '-' _ :: .literal found :: rest =>
    if found.toList.head?.any Char.isDigit then some ([.literal ("-" ++ found)], rest) else none
  | _ => none

/-- A group with the given content. -/
def group (bracket : Bracket) (content : Phrase) : Phrase := do
  return [.group bracket (← Reader.inside bracket content)]

/-- A group in the given brackets with any content, which is written as it is. -/
def groupIn (bracket : Bracket) : Phrase
  | .group found content :: rest =>
    if found = bracket then some ([.group found content], rest) else none
  | _ => none

/-- A group with any content, which is written as it is. -/
def anyGroup : Phrase
  | .group bracket content :: rest => some ([.group bracket content], rest)
  | _ => none

/-- Phrases with an operator between them. -/
def separated (symbol : String) (phrase : Phrase) : Phrase :=
  all [phrase, many (all [mark symbol, phrase])]

/-- Phrases with commas between them and possibly after the last; there may be none. -/
def commas (phrase : Phrase) : Phrase := maybe (all [separated "," phrase, maybe (mark ",")])

/-- Phrases with plus signs between them and possibly after the last; there may be none. -/
def sum (phrase : Phrase) : Phrase := maybe (all [separated "+" phrase, maybe (mark "+")])

end Phrase

end PreferenceInjector.Derive
