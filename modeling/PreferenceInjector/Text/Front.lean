/-!
# Reading off the front of a text

A scanner takes something off the front of a text and gives it with the rest. The rest is no
longer than the text, and shorter when something was taken; these lengths are what recursion over
a text rests on.
-/

namespace PreferenceInjector

/-! The steps by which a scanner shows that its rest is shorter. They are stated of lengths, so that
the proofs inside definitions are single lemmas and read the same wherever they are used. -/

theorem length_lt_cons (c : Char) (rest : List Char) : rest.length < (c :: rest).length :=
  Nat.lt_succ_self _

theorem length_le_self (s : List Char) : s.length ≤ s.length := Nat.le_refl _

theorem length_le_of_lt {rest s : List Char} (h : rest.length < s.length) :
    rest.length ≤ s.length :=
  Nat.le_of_lt h

theorem length_lt_trans {last rest s : List Char} (h : last.length < rest.length)
    (h' : rest.length < s.length) : last.length < s.length :=
  Nat.lt_trans h h'

theorem length_le_trans {last rest s : List Char} (h : last.length ≤ rest.length)
    (h' : rest.length ≤ s.length) : last.length ≤ s.length :=
  Nat.le_trans h h'

theorem length_lt_of_lt_of_le {last rest s : List Char} (h : last.length < rest.length)
    (h' : rest.length ≤ s.length) : last.length < s.length :=
  Nat.lt_of_lt_of_le h h'

theorem length_lt_of_le_of_lt {last rest s : List Char} (h : last.length ≤ rest.length)
    (h' : rest.length < s.length) : last.length < s.length :=
  Nat.lt_of_le_of_lt h h'

theorem length_le_of_le_of_lt {last rest s : List Char} (h : last.length ≤ rest.length)
    (h' : rest.length < s.length) : last.length ≤ s.length :=
  Nat.le_of_lt (Nat.lt_of_le_of_lt h h')

theorem length_le_of_lt_of_le {last rest s : List Char} (h : last.length < rest.length)
    (h' : rest.length ≤ s.length) : last.length ≤ s.length :=
  Nat.le_of_lt (Nat.lt_of_lt_of_le h h')

/-- What follows `word`, when the text starts with it. -/
def dropWord? : List Char → List Char → Option (List Char)
  | [], s => some s
  | _ :: _, [] => none
  | w :: word, c :: s => if w = c then dropWord? word s else none

/-- Dropping a run never lengthens a text. -/
theorem dropWhile_length_le (p : Char → Bool) (s : List Char) :
    (s.dropWhile p).length ≤ s.length :=
  (List.dropWhile_sublist p).length_le

/-- A dropped word is missing from the length. -/
theorem length_of_dropWord? {word s rest : List Char} (h : dropWord? word s = some rest) :
    s.length = word.length + rest.length := by
  induction word generalizing s with
  | nil => simp [dropWord?] at h; simp [h]
  | cons w word ih =>
    cases s with
    | nil => simp [dropWord?] at h
    | cons c s =>
      simp only [dropWord?] at h
      split at h
      · simp [ih h]; omega
      · cases h

end PreferenceInjector
