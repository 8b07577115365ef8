import PreferenceInjector.Declaration.Word

/-!
# Readings of the declaration grammar

A reading is the outcome of one grammar rule at the front of a text: what was found with the rest
of the text, and the rules that were tried in vain on the way. Rules that read a text without a
choice are put together by `andThen` and `finish`, and a choice keeps the misses of its first
side. A rule that always succeeds, because it may find nothing, gives an `Ending`. Misses do not
influence what is found; they only explain why a whole text could not be read.
-/

namespace PreferenceInjector.Declaration

/-- The rules of the grammar that an explanation can name. -/
inductive Rule where
  | endOfInput
  | file
  | package
  | component
  | entities
  | inject
  | consumer
  | field
  | annotated
  | arguments
  | modifier
  | type
  | typeArguments
  | dimension
  | name
  | identifier
  deriving DecidableEq, Repr

/-- All rules in the order in which an explanation lists them. -/
def Rule.all : List Rule :=
  [endOfInput, file, package, component, entities, inject, consumer, field, annotated, arguments,
    modifier, type, typeArguments, dimension, name, identifier]

/-- The name of a rule in an explanation. -/
def Rule.title : Rule → String
  | endOfInput => "EOI"
  | file => "File"
  | package => "PackageDecl"
  | component => "Component"
  | entities => "Entities"
  | inject => "Inject"
  | consumer => "Class"
  | field => "Field"
  | annotated => "Annotation"
  | arguments => "AnnotationArgs"
  | modifier => "Modifier"
  | type => "TypeName"
  | typeArguments => "TypeArgs"
  | dimension => "ArrayDim"
  | name => "QualifiedName"
  | identifier => "Identifier"

/-- A rule that was tried in vain where `left` characters of the text were left, together with
the misses inside that try. -/
inductive Miss where
  | mk (rule : Rule) (left : Nat) (inner : List Miss)

/-- The outcome of a rule that reads at least one character when it succeeds. -/
structure Reading (α : Type) (s : List Char) where
  /-- What was found, with the rest of the text. -/
  found : Option (α × { rest : List Char // rest.length < s.length })
  /-- The rules tried in vain, in order. -/
  misses : List Miss

/-- The outcome of a rule that always succeeds, possibly without reading anything. -/
structure Ending (α : Type) (s : List Char) where
  /-- What was found. -/
  value : α
  /-- The rest of the text. -/
  rest : { rest : List Char // rest.length ≤ s.length }
  /-- The rules tried in vain, in order. -/
  misses : List Miss

namespace Ending

variable {α β : Type} {s : List Char}

/-- An ending followed by another one. -/
def finish (first : Ending α s)
    (next : α → (r : List Char) → r.length ≤ s.length → Ending β r) : Ending β s :=
  let second := next first.value first.rest.1 first.rest.2
  ⟨second.value, ⟨second.rest.1, Nat.le_trans second.rest.2 first.rest.2⟩,
    first.misses ++ second.misses⟩

/-- An ending followed by a reading. -/
def andThen (first : Ending α s)
    (next : α → (r : List Char) → r.length ≤ s.length → Reading β r) : Reading β s :=
  let second := next first.value first.rest.1 first.rest.2
  ⟨second.found.map fun (b, rest) => (b, ⟨rest.1, Nat.lt_of_lt_of_le rest.2 first.rest.2⟩),
    first.misses ++ second.misses⟩

/-- An ending that reads nothing. -/
def done (a : α) (s : List Char) : Ending α s := ⟨a, ⟨s, Nat.le_refl _⟩, []⟩

/-- The gap at the front of a text. -/
def gap (s : List Char) : Ending Gap s := ⟨(takeGap s).1, ⟨_, takeGap_length_le s⟩, []⟩

end Ending

namespace Reading

variable {α β : Type} {s : List Char}

/-- A reading with another value. -/
def map (f : α → β) (reading : Reading α s) : Reading β s :=
  ⟨reading.found.map fun (a, rest) => (f a, rest), reading.misses⟩

/-- A reading followed by another one. -/
def andThen (first : Reading α s)
    (next : α → (r : List Char) → r.length < s.length → Reading β r) : Reading β s :=
  match first.found with
  | none => ⟨none, first.misses⟩
  | some (a, rest) =>
    let second := next a rest.1 rest.2
    ⟨second.found.map fun (b, last) => (b, ⟨last.1, Nat.lt_trans last.2 rest.2⟩),
      first.misses ++ second.misses⟩

/-- A reading followed by an ending. -/
def finish (first : Reading α s)
    (next : α → (r : List Char) → r.length < s.length → Ending β r) : Reading β s :=
  match first.found with
  | none => ⟨none, first.misses⟩
  | some (a, rest) =>
    let second := next a rest.1 rest.2
    ⟨some (second.value, ⟨second.rest.1, Nat.lt_of_le_of_lt second.rest.2 rest.2⟩),
      first.misses ++ second.misses⟩

/-- The first reading if it succeeds, otherwise the second. -/
def orElse (first second : Reading α s) : Reading α s :=
  match first.found with
  | some _ => first
  | none => ⟨second.found, first.misses ++ second.misses⟩

/-- The reading as an instance of a rule, which is missed when the reading fails. -/
def within (rule : Rule) (reading : Reading α s) : Reading α s :=
  match reading.found with
  | some _ => reading
  | none => ⟨none, [.mk rule s.length reading.misses]⟩

/-- The reading if it succeeds, otherwise nothing. -/
def optional (reading : Reading α s) : Ending (Option α) s :=
  match reading.found with
  | some (a, rest) => ⟨some a, ⟨rest.1, Nat.le_of_lt rest.2⟩, reading.misses⟩
  | none => ⟨none, ⟨s, Nat.le_refl _⟩, reading.misses⟩

/-- A fixed word at the front of a text, which is never listed as missed. -/
def word (word : String) (s : List Char) (nonempty : 0 < word.toList.length := by decide) :
    Reading Unit s :=
  match h : dropWord? word.toList s with
  | some rest => ⟨some ((), ⟨rest, by have := length_of_dropWord? h; omega⟩), []⟩
  | none => ⟨none, []⟩

/-- A fixed mark at the front of a text, which is never listed as missed. -/
def mark (mark : Char) : (s : List Char) → Reading Unit s
  | [] => ⟨none, []⟩
  | c :: rest => if mark = c then ⟨some ((), ⟨rest, by simp⟩), []⟩ else ⟨none, []⟩

/-- A rule that is read character by character, so that nothing inside it is listed as missed. -/
def atom (rule : Rule) (s : List Char) (scanned : Option (α × List Char))
    (shorter : ∀ a rest, scanned = some (a, rest) → rest.length < s.length) : Reading α s :=
  match scanned, shorter with
  | some (a, rest), shorter => ⟨some (a, ⟨rest, shorter a rest rfl⟩), []⟩
  | none, _ => ⟨none, [.mk rule s.length []]⟩

/-- The readings that follow each other at the front of a text, each after a gap. -/
def repeated (read : (s : List Char) → Reading α s) (s : List Char) :
    Ending (List (Gap × α)) s :=
  let before := Ending.gap s
  let first := read before.rest.1
  match first.found with
  | none => ⟨[], ⟨s, Nat.le_refl _⟩, first.misses⟩
  | some (a, rest) =>
    have shorter : rest.1.length < s.length := Nat.lt_of_lt_of_le rest.2 before.rest.2
    let more := repeated read rest.1
    ⟨(before.value, a) :: more.value,
      ⟨more.rest.1, Nat.le_trans more.rest.2 (Nat.le_of_lt shorter)⟩,
      first.misses ++ more.misses⟩
termination_by s.length

end Reading

end PreferenceInjector.Declaration
