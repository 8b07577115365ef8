import PreferenceInjector.Text.Front

/-!
# Taking values off the front of a text

`Taken` is the outcome of taking something off the front of a text: the value with a shorter
rest, or nothing. `Kept` is the outcome of taking whatever is there, possibly nothing. Outcomes
follow each other by `andThen` and `finish`, and `many` repeats one as often as it succeeds.
-/

namespace PreferenceInjector

/-- A value taken off the front of `s` with the shorter rest, if it stands there. -/
abbrev Taken (α : Type) (s : List Char) :=
  Option (α × { rest : List Char // rest.length < s.length })

/-- A value taken off the front of `s`, possibly without taking any character. -/
abbrev Kept (α : Type) (s : List Char) := α × { rest : List Char // rest.length ≤ s.length }

namespace Kept

variable {α β : Type} {s : List Char}

/-- The value `a` without taking anything. -/
def done (a : α) (s : List Char) : Kept α s := (a, ⟨s, length_le_self s⟩)

/-- What can always be taken, followed by what may be missing. -/
def andThen (first : Kept α s)
    (next : α → (r : List Char) → r.length ≤ s.length → Taken β r) : Taken β s :=
  match first with
  | (a, ⟨r, shorter⟩) =>
    (next a r shorter).map fun (b, ⟨last, h⟩) => (b, ⟨last, length_lt_of_lt_of_le h shorter⟩)

/-- Two outcomes that always succeed, one after the other. -/
def finish (first : Kept α s)
    (next : α → (r : List Char) → r.length ≤ s.length → Kept β r) : Kept β s :=
  match first with
  | (a, ⟨r, shorter⟩) =>
    match next a r shorter with
    | (b, ⟨last, h⟩) => (b, ⟨last, length_le_trans h shorter⟩)

end Kept

namespace Taken

variable {α β : Type} {s : List Char}

/-- The same with another value. -/
def as (f : α → β) (taken : Taken α s) : Taken β s := taken.map fun (a, rest) => (f a, rest)

/-- The same with another value, where there is one. -/
def asMaybe (f : α → Option β) (taken : Taken α s) : Taken β s :=
  taken.bind fun (a, rest) => (f a).map fun b => (b, rest)

/-- One value and then another. -/
def andThen (first : Taken α s)
    (next : α → (r : List Char) → r.length < s.length → Taken β r) : Taken β s :=
  first.bind fun (a, ⟨r, shorter⟩) =>
    (next a r shorter).map fun (b, ⟨last, h⟩) => (b, ⟨last, length_lt_trans h shorter⟩)

/-- One value and then one that is always there. -/
def finish (first : Taken α s)
    (next : α → (r : List Char) → r.length < s.length → Kept β r) : Taken β s :=
  first.map fun (a, ⟨r, shorter⟩) =>
    match next a r shorter with
    | (b, ⟨last, h⟩) => (b, ⟨last, length_lt_of_le_of_lt h shorter⟩)

/-- The first value if it is there, otherwise the second. -/
def or (first : Taken α s) (second : Unit → Taken α s) : Taken α s := first.orElse second

/-- The value if it is there. -/
def maybe (taken : Taken α s) : Kept (Option α) s :=
  match taken with
  | some (a, ⟨rest, shorter⟩) => (some a, ⟨rest, length_le_of_lt shorter⟩)
  | none => Kept.done none s

/-- One character that satisfies `p`. -/
def one (p : Char → Bool) : (s : List Char) → Taken Char s
  | [] => none
  | c :: rest => if p c then some (c, ⟨rest, length_lt_cons c rest⟩) else none

/-- The character `c`. -/
def mark (c : Char) (s : List Char) : Taken Char s := one (· == c) s

/-- As many values as follow each other. -/
def many (take : (s : List Char) → Taken α s) (s : List Char) : Kept (List α) s :=
  match take s with
  | none => Kept.done [] s
  | some (a, ⟨rest, shorter⟩) =>
    match many take rest with
    | (more, ⟨last, h⟩) => (a :: more, ⟨last, length_le_of_le_of_lt h shorter⟩)
termination_by s.length

/-- The longest run of characters that satisfy `p`. -/
def run (p : Char → Bool) (s : List Char) : Kept (List Char) s := many (one p) s

/-- The longest run of characters that satisfy `p`, at least one. -/
def someRun (p : Char → Bool) (s : List Char) : Taken (List Char) s :=
  (one p s).finish fun c r _ =>
  (run p r).finish fun cs r₁ _ => Kept.done (c :: cs) r₁

/-- A fixed word. -/
def word : List Char → (s : List Char) → Taken Unit s
  | [], _ => none
  | [c], s => (mark c s).as fun _ => ()
  | c :: cs, s => (mark c s).andThen fun _ r _ => word cs r

/-- The end of a line: a line feed, possibly behind a carriage return. -/
def lineEnd (s : List Char) : Taken Unit s :=
  ((mark '\n' s).as fun _ => ()).or fun _ => word ['\r', '\n'] s

/-- Exactly `n + 1` characters that satisfy `p`. -/
def exactly (p : Char → Bool) : Nat → (s : List Char) → Taken (List Char) s
  | 0, s => (one p s).as ([·])
  | n + 1, s => (one p s).andThen fun c r _ => (exactly p n r).as (c :: ·)

end Taken

end PreferenceInjector
