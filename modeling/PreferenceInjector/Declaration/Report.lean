import PreferenceInjector.Declaration.Grammar

/-!
# Explanations of ungrammatical files

A text that is no declaration file is explained by the place that the rules reached last before
they failed, and by the rules that were expected there. A rule that failed at the same place as
exactly one rule inside it is left out in favour of that rule; one that had several such rules
inside it stands for them.
-/

namespace PreferenceInjector.Declaration

/-- The place reached last, by the number of characters left there, and the rules missed there. -/
structure Furthest where
  /-- The number of characters left. -/
  left : Nat
  /-- The rules missed, in order. -/
  rules : List Rule
  deriving DecidableEq, Repr

namespace Furthest

/-- How many rules are missed at a place so far. -/
def countAt (furthest : Furthest) (left : Nat) : Nat :=
  if left = furthest.left then furthest.rules.length else 0

/-- The place reached last once a rule has failed, `before` rules having been missed there when
the rule was tried. -/
def note (furthest : Furthest) (rule : Rule) (left before : Nat) : Furthest :=
  if furthest.countAt left = before + 1 then furthest
  else if left = furthest.left then ⟨left, furthest.rules.take before ++ [rule]⟩
  else if left < furthest.left then ⟨left, [rule]⟩
  else furthest

mutual

/-- The place reached last after a miss. -/
def add (furthest : Furthest) : Miss → Furthest
  | .mk rule left inner => (furthest.addAll inner).note rule left (furthest.countAt left)

/-- The place reached last after several misses. -/
def addAll (furthest : Furthest) : List Miss → Furthest
  | [] => furthest
  | miss :: rest => (furthest.add miss).addAll rest

end

/-- The place reached last in a text that is no declaration file. -/
def ofText (s : List Char) : Furthest := add ⟨s.length, []⟩ (missesOf s)

/-- The missed rules, each once, in the order of the grammar. -/
def expected (furthest : Furthest) : List Rule :=
  Rule.all.filter furthest.rules.contains

end Furthest

/-- Names as an enumeration whose last two are joined by `or`. -/
def alternatives : List String → String
  | [] => ""
  | [a] => a
  | [a, b] => a ++ " or " ++ b
  | names => ", ".intercalate names.dropLast ++ ", or " ++ names.getLast?.getD ""

/-- A place in a text as its line, counted from one, and its column, counted in characters from
one; lines end at line feeds. -/
def lineAndColumn (before : List Char) : Nat × Nat :=
  (before.count '\n' + 1, (before.reverse.takeWhile (· != '\n')).length + 1)

/-- The line that holds the place between two parts of a text, as it is shown: without its line
end characters, unless one of these is at the place. -/
def shownLine (before after : List Char) : List Char :=
  let line := (before.reverse.takeWhile (· != '\n')).reverse ++ after.takeWhile (· != '\n') ++
    (if after.contains '\n' then ['\n'] else [])
  match after with
  | '\n' :: _ | '\r' :: _ =>
    line.map fun c => if c = '\r' then '␍' else if c = '\n' then '␊' else c
  | _ => line.filter fun c => c != '\r' && c != '\n'

/-- The explanation of a text that is no declaration file: the place, the line with a mark under
the place, and what was expected there. -/
def report (path : String) (s : List Char) : String :=
  let furthest := Furthest.ofText s
  let before := s.take (s.length - furthest.left)
  let after := s.drop (s.length - furthest.left)
  let (line, column) := lineAndColumn before
  let shown := shownLine before after
  let number := toString line
  let margin := String.ofList (number.toList.map fun _ => ' ')
  let underline := (shown.take (column - 1)).map fun c => if c = '\t' then '\t' else ' '
  "\n".intercalate [
    margin ++ "--> " ++ path ++ ":" ++ number ++ ":" ++ toString column,
    margin ++ " |",
    number ++ " | " ++ String.ofList shown,
    margin ++ " | " ++ String.ofList underline ++ "^---",
    margin ++ " |",
    margin ++ " = expected " ++ alternatives (furthest.expected.map Rule.title)]

end PreferenceInjector.Declaration
