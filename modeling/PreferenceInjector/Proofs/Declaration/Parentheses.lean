import PreferenceInjector.Proofs.Declaration.Soundness

/-!
# Annotation arguments by counting parentheses

The grammar reads the arguments of an annotation with a rule that calls itself for every nested
pair of parentheses. A scanner that keeps only the number of open parentheses, and whether it is
inside a literal, reads the same text in one pass: it stops where no parenthesis is open any more,
and fails at the end of the text. What it reads up to there is the balanced text of the grammar.
-/

namespace PreferenceInjector.Declaration

/-- What a scanner of parentheses has to know of the text that it has read. -/
inductive Scanner where
  /-- Outside literals, with some parentheses open. -/
  | outside (depth : Nat)
  /-- Inside a literal with the given quotes. -/
  | inside (depth : Nat) (quote : Char)
  /-- Inside a literal, behind a backslash. -/
  | escaped (depth : Nat) (quote : Char)

namespace Scanner

/-- The scanner after one more character. Parentheses count outside literals only, a literal ends
at its own quote, and a backslash in it takes the next character along. -/
def step : Scanner → Char → Scanner
  | outside depth, c =>
    if c = '(' then outside (depth + 1)
    else if c = ')' then outside (depth - 1)
    else if c = '"' ∨ c = '\'' then inside depth c
    else outside depth
  | inside depth quote, c =>
    if c = '\\' then escaped depth quote
    else if c = quote then outside depth
    else inside depth quote
  | escaped depth quote, _ => inside depth quote

/-- What is read behind a text, together with the text. -/
def behind (text : List Char) (found : Option (List Char × List Char)) :
    Option (List Char × List Char) :=
  found.map fun (more, rest) => (text ++ more, rest)

/-- The characters that the scanner reads until no parenthesis is open, and those after them. -/
def run : Scanner → List Char → Option (List Char × List Char)
  | outside 0, rest => some ([], rest)
  | _, [] => none
  | scanner, c :: s => behind [c] (run (scanner.step c) s)

variable {depth : Nat} {quote c : Char} {s text rest : List Char}
  {found : Option (List Char × List Char)}

@[simp] theorem behind_nil : behind [] found = found := by
  cases found <;> rfl

@[simp] theorem behind_behind (first second : List Char) :
    behind first (behind second found) = behind (first ++ second) found := by
  cases found <;> simp [behind]

@[simp] theorem isSome_behind : (behind text found).isSome = found.isSome := by
  cases found <;> rfl

/-- With no parenthesis open nothing more is read. -/
@[simp] theorem run_zero (s : List Char) : (outside 0).run s = some ([], s) := by
  rw [run]

/-- Outside literals the next character is read while a parenthesis is open. -/
theorem run_outside (depth : Nat) (c : Char) (s : List Char) :
    (outside (depth + 1)).run (c :: s) = behind [c] (((outside (depth + 1)).step c).run s) := rfl

/-- An opening parenthesis is one more. -/
@[simp] theorem run_open (depth : Nat) (s : List Char) :
    (outside (depth + 1)).run ('(' :: s) = behind ['('] ((outside (depth + 2)).run s) := rfl

/-- A closing parenthesis is one less. -/
@[simp] theorem run_close (depth : Nat) (s : List Char) :
    (outside (depth + 1)).run (')' :: s) = behind [')'] ((outside depth).run s) := rfl

/-- A quote opens a literal. -/
theorem run_quote (hquote : quote = '"' ∨ quote = '\'') (depth : Nat) (s : List Char) :
    (outside (depth + 1)).run (quote :: s) =
      behind [quote] ((inside (depth + 1) quote).run s) := by
  rcases hquote with rfl | rfl
  · rfl
  · rfl

/-- Any other character is read as it is. -/
theorem run_plain (hc : isArgumentMark c = false) (depth : Nat) (s : List Char) :
    (outside (depth + 1)).run (c :: s) = behind [c] ((outside (depth + 1)).run s) := by
  simp only [isArgumentMark, Bool.or_eq_false_iff, beq_eq_false_iff_ne] at hc
  obtain ⟨⟨⟨hopen, hclose⟩, hdouble⟩, hsingle⟩ := hc
  have hstep : (outside (depth + 1)).step c = outside (depth + 1) := by
    simp [step, hopen, hclose, hdouble, hsingle]
  rw [run_outside, hstep]

/-- A literal is read to its closing quote, as the grammar reads it. -/
theorem run_inside (hquote : quote ≠ '\\') (depth : Nat) (s : List Char) :
    (inside depth quote).run s =
      (literalBody quote s).bind fun (body, rest) => behind body ((outside depth).run rest) := by
  fun_induction literalBody quote s with
  | case1 => rfl
  | case2 c s ih =>
    have hstep : (inside depth quote).run ('\\' :: c :: s) =
        behind ['\\', c] ((inside depth quote).run s) := by
      simp [run, step]
    rw [hstep, ih]
    cases literalBody quote s with
    | none => rfl
    | some found => simp
  | case3 s =>
    have hstep : (inside depth quote).step quote = outside depth := by simp [step, hquote]
    rw [run, hstep]
    · rfl
    · simp
  | case4 c s hescape hc ih =>
    by_cases hslash : c = '\\'
    · subst hslash
      -- Only at the end does a backslash take no character along, and then both fail.
      cases s with
      | nil => rfl
      | cons d s => exact (hescape d s rfl rfl).elim
    · have hstep : (inside depth quote).step c = inside depth quote := by simp [step, hslash, hc]
      rw [run, hstep, ih]
      · cases literalBody quote s with
        | none => rfl
        | some found => simp
      · simp

/-- Balanced text leaves the number of open parentheses as it is. -/
theorem run_balanced (h : Balanced text) (depth : Nat) (rest : List Char) :
    (outside (depth + 1)).run (text ++ rest) = behind text ((outside (depth + 1)).run rest) := by
  -- Any depth, because nested text is read one deeper, and any rest, because the text goes on.
  induction h generalizing depth rest with
  | empty => simp
  | @literal quote body text hquote hbody _ ih =>
    have hread : literalBody quote (body ++ (text ++ rest)) = some (body, text ++ rest) :=
      (literalBody_eq_some_iff (ne_backslash_of_quote hquote)).mpr ⟨rfl, hbody⟩
    rw [List.append_assoc, List.cons_append, run_quote hquote,
      run_inside (ne_backslash_of_quote hquote), hread]
    change behind [quote] (behind body ((outside (depth + 1)).run (text ++ rest))) = _
    rw [ih]
    simp
  | @nested inner text _ _ ihinner ih =>
    have hshape : '(' :: inner ++ ')' :: text ++ rest =
        '(' :: (inner ++ ')' :: (text ++ rest)) := by simp
    rw [hshape, run_open, ihinner, run_close, ih]
    simp
  | @plain c text hc _ ih =>
    rw [List.cons_append, run_plain hc, ih, behind_behind]
    rfl

/-- A parenthesis that is closed in the end is closed behind balanced text. -/
theorem exists_balanced_of_run {s : List Char} {depth : Nat}
    (h : ((outside (depth + 1)).run s).isSome = true) :
    ∃ text rest, Balanced text ∧ s = text ++ ')' :: rest := by
  match s with
  | [] => cases h
  | c :: s =>
    by_cases hopen : c = '('
    · subst hopen
      rw [run_open, isSome_behind] at h
      -- First up to the parenthesis that closes this one, then on from there.
      obtain ⟨inner, after, hinner, rfl⟩ := exists_balanced_of_run h
      rw [run_balanced hinner, run_close, isSome_behind, isSome_behind] at h
      obtain ⟨text, rest, htext, rfl⟩ := exists_balanced_of_run h
      exact ⟨'(' :: inner ++ ')' :: text, rest, .nested hinner htext, by simp⟩
    by_cases hclose : c = ')'
    · subst hclose
      exact ⟨[], s, .empty, rfl⟩
    by_cases hquote : c = '"' ∨ c = '\''
    · rw [run_quote hquote, isSome_behind, run_inside (ne_backslash_of_quote hquote)] at h
      cases hread : literalBody c s with
      | none =>
        rw [hread] at h
        cases h
      | some found =>
        obtain ⟨body, after⟩ := found
        rw [hread, Option.bind_some, isSome_behind] at h
        obtain ⟨rfl, hbody⟩ := (literalBody_eq_some_iff (ne_backslash_of_quote hquote)).mp hread
        obtain ⟨text, rest, htext, rfl⟩ := exists_balanced_of_run h
        exact ⟨c :: body ++ text, rest, .literal hquote hbody htext, by simp⟩
    · have hplain : isArgumentMark c = false := by
        simp [isArgumentMark, hopen, hclose, not_or.mp hquote]
      rw [run_plain hplain, isSome_behind] at h
      obtain ⟨text, rest, htext, rfl⟩ := exists_balanced_of_run h
      exact ⟨c :: text, rest, .plain hplain htext, rfl⟩
termination_by s.length

end Scanner

/-- Taken arguments are balanced text in parentheses, and all such text at the front is taken. -/
theorem takeArguments?_eq_some_iff {s text rest : List Char} :
    (takeArguments? s).map (fun (text, rest) => (text, rest.1)) = some (text, rest) ↔
      s = text ++ rest ∧ IsArguments text := by
  constructor
  · intro h
    obtain ⟨⟨found, after⟩, htake, hfound⟩ := Option.map_eq_some_iff.mp h
    cases hfound
    exact takeArguments?_spec s text after htake
  · intro h
    obtain ⟨rfl, htext⟩ := h
    obtain ⟨hlen, htake⟩ := takeArguments?_append htext rest
    rw [htake]
    rfl

/-- The scanner reads balanced text up to the parenthesis that closes the first one. -/
theorem Scanner.run_eq_some_iff {s text rest : List Char} :
    behind ['('] ((outside 1).run s) = some (text, rest) ↔
      '(' :: s = text ++ rest ∧ IsArguments text := by
  constructor
  · intro h
    have hread : ((outside 1).run s).isSome = true := by
      have hsome := congrArg Option.isSome h
      rwa [isSome_behind, Option.isSome_some] at hsome
    obtain ⟨inner, after, hinner, rfl⟩ := exists_balanced_of_run hread
    rw [run_balanced hinner, run_close, run_zero] at h
    cases h
    exact ⟨by simp, inner, hinner, rfl⟩
  · intro h
    obtain ⟨hs, inner, hinner, rfl⟩ := h
    have hinside : s = inner ++ ')' :: rest := by simpa using hs
    rw [hinside, run_balanced hinner, run_close, run_zero]
    rfl

/-- Behind an opening parenthesis the grammar finds arguments exactly when the scanner finds the
closing one, and then both read the same characters. -/
theorem readArguments_eq_scan (s : List Char) :
    (readArguments ('(' :: s)).found.map (fun (text, rest) => (text, rest.1)) =
      Scanner.behind ['('] ((Scanner.outside 1).run s) := by
  have hfound : (readArguments ('(' :: s)).found = takeArguments? ('(' :: s) := by
    rw [readArguments]
    cases takeArguments? ('(' :: s) <;> rfl
  rw [hfound]
  ext ⟨text, rest⟩
  exact takeArguments?_eq_some_iff.trans Scanner.run_eq_some_iff.symm

end PreferenceInjector.Declaration
