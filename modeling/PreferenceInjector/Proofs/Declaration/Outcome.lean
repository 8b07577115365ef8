import PreferenceInjector.Declaration.Reading

/-!
# Outcomes of readings

Two views of a reading that leave its misses aside. `Finds` and `Fails` say what a reading does on
one text and are put together rule by rule, from the first token to the last. `Gives` says what
holds of everything that a reading finds, so that a property of a rule follows from properties of
its parts. Endings have the same two views, except that they cannot fail.
-/

namespace PreferenceInjector.Declaration

/-- A dropped word is what the text starts with. -/
theorem dropWord?_eq_some_iff {word s rest : List Char} :
    dropWord? word s = some rest ↔ s = word ++ rest := by
  induction word generalizing s with
  | nil => simp [dropWord?]
  | cons w word ih =>
    cases s with
    | nil => simp [dropWord?]
    | cons c s =>
      simp only [dropWord?, List.cons_append, List.cons.injEq, eq_comm (a := c)]
      split
      · next h => simp [h, ih]
      · next h => simp [h]

variable {α β : Type} {s : List Char}

namespace Ending

/-- The ending has the value `a` and leaves `rest`. -/
def Ends (ending : Ending α s) (a : α) (rest : List Char) : Prop :=
  ending.value = a ∧ ending.rest.1 = rest

/-- The value of the ending and the rest it leaves satisfy `P`. -/
def Gives (ending : Ending α s) (P : α → List Char → Prop) : Prop := P ending.value ending.rest.1

end Ending

namespace Reading

/-- The reading finds `a` and leaves `rest`. -/
def Finds (reading : Reading α s) (a : α) (rest : List Char) : Prop :=
  ∃ h, reading.found = some (a, ⟨rest, h⟩)

/-- The reading finds nothing. -/
def Fails (reading : Reading α s) : Prop := reading.found = none

/-- Whatever the reading finds satisfies `P` with the rest it leaves. -/
def Gives (reading : Reading α s) (P : α → List Char → Prop) : Prop :=
  ∀ a rest, reading.Finds a rest → P a rest

end Reading

open Reading

/-! ### What is found -/

section Finds

variable {a : α} {b : β} {r rest : List Char}

/-- A reading that finds something, followed by one that does. -/
theorem Reading.Finds.andThen {first : Reading α s}
    {next : α → (r : List Char) → r.length < s.length → Reading β r} (hfirst : first.Finds a r)
    (hnext : ∀ h, (next a r h).Finds b rest) : (first.andThen next).Finds b rest := by
  obtain ⟨h, hfirst⟩ := hfirst
  obtain ⟨h', hnext⟩ := hnext h
  refine ⟨Nat.lt_trans h' h, ?_⟩
  simp [Reading.andThen, hfirst, hnext]

/-- A reading that finds something, followed by an ending. -/
theorem Reading.Finds.finish {first : Reading α s}
    {next : α → (r : List Char) → r.length < s.length → Ending β r} (hfirst : first.Finds a r)
    (hnext : ∀ h, (next a r h).Ends b rest) : (first.finish next).Finds b rest := by
  obtain ⟨h, hfirst⟩ := hfirst
  obtain ⟨rfl, rfl⟩ := hnext h
  refine ⟨Nat.lt_of_le_of_lt (next a r h).rest.2 h, ?_⟩
  simp [Reading.finish, hfirst]

/-- An ending followed by a reading that finds something. -/
theorem Ending.Ends.andThen {first : Ending α s}
    {next : α → (r : List Char) → r.length ≤ s.length → Reading β r} (hfirst : first.Ends a r)
    (hnext : ∀ h, (next a r h).Finds b rest) : (first.andThen next).Finds b rest := by
  obtain ⟨rfl, rfl⟩ := hfirst
  obtain ⟨h', hnext⟩ := hnext first.rest.2
  refine ⟨Nat.lt_of_lt_of_le h' first.rest.2, ?_⟩
  simp [Ending.andThen, hnext]

/-- An ending followed by an ending. -/
theorem Ending.Ends.finish {first : Ending α s}
    {next : α → (r : List Char) → r.length ≤ s.length → Ending β r} (hfirst : first.Ends a r)
    (hnext : ∀ h, (next a r h).Ends b rest) : (first.finish next).Ends b rest := by
  obtain ⟨rfl, rfl⟩ := hfirst
  exact hnext first.rest.2

/-- An ending that reads nothing. -/
theorem Ending.ends_done (a : α) (s : List Char) : (Ending.done a s).Ends a s := ⟨rfl, rfl⟩

/-- A fixed word at the front of a text. -/
theorem Reading.word_finds (word : String) (rest : List Char)
    (nonempty : 0 < word.toList.length) :
    (Reading.word word (word.toList ++ rest) nonempty).Finds () rest := by
  have hdrop : dropWord? word.toList (word.toList ++ rest) = some rest :=
    dropWord?_eq_some_iff.mpr rfl
  refine ⟨by simp; omega, ?_⟩
  unfold Reading.word
  split
  · next h =>
    cases hdrop.symm.trans h
    rfl
  · next h => cases hdrop.symm.trans h

/-- A mark at the front of a text. -/
theorem Reading.mark_finds (c : Char) (rest : List Char) :
    (Reading.mark c (c :: rest)).Finds () rest := by
  refine ⟨by simp, ?_⟩
  simp [Reading.mark]

/-- A word that its scanner takes. -/
theorem Reading.atom_finds {rule : Rule} {scanned : Option (α × List Char)}
    {shorter : ∀ a rest, scanned = some (a, rest) → rest.length < s.length}
    (h : scanned = some (a, rest)) : (Reading.atom rule s scanned shorter).Finds a rest := by
  subst h
  exact ⟨shorter a rest rfl, rfl⟩

/-- A changed value. -/
theorem Reading.Finds.map {reading : Reading α s} (f : α → β) (h : reading.Finds a rest) :
    (reading.map f).Finds (f a) rest := by
  obtain ⟨h', h⟩ := h
  exact ⟨h', by simp [Reading.map, h]⟩

/-- A rule finds what its reading does. -/
theorem Reading.Finds.within {reading : Reading α s} (rule : Rule) (h : reading.Finds a rest) :
    (reading.within rule).Finds a rest := by
  obtain ⟨h', h⟩ := h
  exact ⟨h', by simp [Reading.within, h]⟩

/-- The first side of a choice is taken when it finds something. -/
theorem Reading.Finds.orElse {first : Reading α s} (h : first.Finds a rest) (second : Reading α s) :
    (first.orElse second).Finds a rest := by
  obtain ⟨h', h⟩ := h
  exact ⟨h', by simp [Reading.orElse, h]⟩

/-- The second side of a choice is taken when the first one finds nothing. -/
theorem Reading.Fails.orElse_finds {first second : Reading α s} (hfirst : first.Fails)
    (h : second.Finds a rest) : (first.orElse second).Finds a rest := by
  obtain ⟨h', h⟩ := h
  refine ⟨h', ?_⟩
  rw [Fails] at hfirst
  simp [Reading.orElse, hfirst, h]

/-- An optional reading that finds something. -/
theorem Reading.Finds.optional {reading : Reading α s} (h : reading.Finds a rest) :
    (optional reading).Ends (some a) rest := by
  obtain ⟨h', h⟩ := h
  simp [Ending.Ends, Reading.optional, h]

/-- An optional reading that finds nothing reads nothing. -/
theorem Reading.Fails.optional {reading : Reading α s} (h : reading.Fails) :
    (optional reading).Ends none s := by
  rw [Fails] at h
  simp [Ending.Ends, Reading.optional, h]

/-- A repetition ends where its rule fails after the gap. -/
theorem Reading.Fails.repeated {read : (s : List Char) → Reading α s} {gap : Gap}
    (hread : (read r).Fails) (hgap : takeGap s = (gap, r)) :
    (Reading.repeated read s).Ends [] s := by
  have hrest : (takeGap s).2 = r := congrArg Prod.snd hgap
  subst hrest
  rw [Fails] at hread
  rw [Ending.Ends, Reading.repeated]
  simp only [Ending.gap, hread, and_self]

/-- A repetition goes on after what its rule finds behind the gap. -/
theorem Reading.Finds.repeated {read : (s : List Char) → Reading α s} {gap : Gap}
    {s' : List Char} {more : List (Gap × α)} (hread : (read s').Finds a r)
    (hgap : takeGap s = (gap, s')) (hmore : (Reading.repeated read r).Ends more rest) :
    (Reading.repeated read s).Ends ((gap, a) :: more) rest := by
  obtain ⟨rfl, rfl⟩ : (takeGap s).1 = gap ∧ (takeGap s).2 = s' := Prod.ext_iff.mp hgap
  obtain ⟨h, hread⟩ := hread
  obtain ⟨hvalue, hrest⟩ := hmore
  rw [Ending.Ends, Reading.repeated]
  simp only [Ending.gap, hread, hvalue, hrest, and_self]

end Finds

/-! ### What is not found -/

section Fails

variable {a : α} {r : List Char}

/-- A mark is not found in front of another character. -/
theorem Reading.mark_fails {c : Char} (h : ∀ d ∈ s.head?, c ≠ d) : (Reading.mark c s).Fails := by
  cases s with
  | nil => rfl
  | cons d s => simp [Reading.Fails, Reading.mark, h d rfl]

/-- A word is not found where its scanner takes nothing. -/
theorem Reading.atom_fails {rule : Rule} {scanned : Option (α × List Char)}
    {shorter : ∀ a rest, scanned = some (a, rest) → rest.length < s.length}
    (h : scanned = none) : (Reading.atom rule s scanned shorter).Fails := by
  subst h
  rfl

/-- Nothing is found when the first of two readings fails. -/
theorem Reading.Fails.andThen {first : Reading α s} (h : first.Fails)
    (next : α → (r : List Char) → r.length < s.length → Reading β r) :
    (first.andThen next).Fails := by
  rw [Fails] at h ⊢
  simp [Reading.andThen, h]

/-- Nothing is found when the reading before an ending fails. -/
theorem Reading.Fails.finish {first : Reading α s} (h : first.Fails)
    (next : α → (r : List Char) → r.length < s.length → Ending β r) :
    (first.finish next).Fails := by
  rw [Fails] at h ⊢
  simp [Reading.finish, h]

/-- Nothing is found when the reading after an ending fails. -/
theorem Ending.Ends.andThen_fails {first : Ending α s}
    {next : α → (r : List Char) → r.length ≤ s.length → Reading β r} (hfirst : first.Ends a r)
    (hnext : ∀ h, (next a r h).Fails) : (first.andThen next).Fails := by
  obtain ⟨rfl, rfl⟩ := hfirst
  have h := hnext first.rest.2
  rw [Fails] at h ⊢
  simp [Ending.andThen, h]

/-- A changed value does not matter to a failure. -/
theorem Reading.Fails.map {reading : Reading α s} (f : α → β) (h : reading.Fails) :
    (reading.map f).Fails := by
  rw [Fails] at h ⊢
  simp [Reading.map, h]

/-- A rule fails when its reading does. -/
theorem Reading.Fails.within {reading : Reading α s} (rule : Rule) (h : reading.Fails) :
    (reading.within rule).Fails := by
  rw [Fails] at h ⊢
  simp [Reading.within, h]

/-- A choice fails when both sides do. -/
theorem Reading.Fails.orElse {first second : Reading α s} (hfirst : first.Fails)
    (hsecond : second.Fails) : (first.orElse second).Fails := by
  rw [Fails] at hfirst hsecond ⊢
  simp [Reading.orElse, hfirst, hsecond]

end Fails

/-! ### What holds of everything found -/

section Gives

variable {P : α → List Char → Prop} {Q : β → List Char → Prop}

/-- What holds after a first reading holds of what follows it. -/
theorem Reading.Gives.andThen {first : Reading α s}
    {next : α → (r : List Char) → r.length < s.length → Reading β r} (hfirst : first.Gives P)
    (hnext : ∀ a r h, P a r → (next a r h).Gives Q) : (first.andThen next).Gives Q := by
  intro b rest hfinds
  obtain ⟨hlen, hfound⟩ := hfinds
  unfold Reading.andThen at hfound
  split at hfound
  · cases hfound
  · next a r hfind =>
    obtain ⟨⟨c, last⟩, hsecond, hp⟩ := Option.map_eq_some_iff.mp hfound
    cases hp
    exact hnext a r.1 r.2 (hfirst a r.1 ⟨r.2, hfind⟩) b last.1 ⟨last.2, hsecond⟩

/-- What holds after a first reading holds of the ending that follows it. -/
theorem Reading.Gives.finish {first : Reading α s}
    {next : α → (r : List Char) → r.length < s.length → Ending β r} (hfirst : first.Gives P)
    (hnext : ∀ a r h, P a r → (next a r h).Gives Q) : (first.finish next).Gives Q := by
  intro b rest hfinds
  obtain ⟨hlen, hfound⟩ := hfinds
  unfold Reading.finish at hfound
  split at hfound
  · cases hfound
  · next a r hfind =>
    cases hfound
    exact hnext a r.1 r.2 (hfirst a r.1 ⟨r.2, hfind⟩)

/-- What holds after a first ending holds of the reading that follows it. -/
theorem Ending.Gives.andThen {first : Ending α s}
    {next : α → (r : List Char) → r.length ≤ s.length → Reading β r} (hfirst : first.Gives P)
    (hnext : ∀ a r h, P a r → (next a r h).Gives Q) : (first.andThen next).Gives Q := by
  intro b rest hfinds
  obtain ⟨hlen, hfound⟩ := hfinds
  obtain ⟨⟨c, last⟩, hsecond, hp⟩ := Option.map_eq_some_iff.mp hfound
  cases hp
  exact hnext _ _ _ hfirst b last.1 ⟨last.2, hsecond⟩

/-- What holds after a first ending holds of the ending that follows it. -/
theorem Ending.Gives.finish {first : Ending α s}
    {next : α → (r : List Char) → r.length ≤ s.length → Ending β r} (hfirst : first.Gives P)
    (hnext : ∀ a r h, P a r → (next a r h).Gives Q) : (first.finish next).Gives Q :=
  hnext _ _ _ hfirst

/-- What holds of a changed value. -/
theorem Reading.Gives.map {reading : Reading α s} {f : α → β}
    (h : reading.Gives fun a rest => Q (f a) rest) : (reading.map f).Gives Q := by
  intro b rest hfinds
  obtain ⟨hlen, hfound⟩ := hfinds
  obtain ⟨⟨a, last⟩, hfind, hp⟩ := Option.map_eq_some_iff.mp hfound
  cases hp
  exact h a rest ⟨hlen, hfind⟩

/-- What holds of both sides of a choice. -/
theorem Reading.Gives.orElse {first second : Reading α s} (hfirst : first.Gives P)
    (hsecond : second.Gives P) : (first.orElse second).Gives P := by
  intro a rest hfinds
  obtain ⟨hlen, hfound⟩ := hfinds
  unfold Reading.orElse at hfound
  split at hfound
  · exact hfirst a rest ⟨hlen, hfound⟩
  · exact hsecond a rest ⟨hlen, hfound⟩

/-- What holds of the reading of a rule. -/
theorem Reading.Gives.within {reading : Reading α s} (rule : Rule) (h : reading.Gives P) :
    (reading.within rule).Gives P := by
  intro a rest hfinds
  obtain ⟨hlen, hfound⟩ := hfinds
  unfold Reading.within at hfound
  split at hfound
  · exact h a rest ⟨hlen, hfound⟩
  · cases hfound

/-- What holds of an optional reading, whether it finds something or not. -/
theorem Reading.Gives.optional {reading : Reading α s} {P : Option α → List Char → Prop}
    (h : reading.Gives fun a rest => P (some a) rest) (hnone : reading.Fails → P none s) :
    (Reading.optional reading).Gives P := by
  unfold Ending.Gives Reading.optional
  split
  · next a rest hfind => exact h a rest.1 ⟨rest.2, hfind⟩
  · next hfind => exact hnone hfind

/-- What holds of a repetition: of nothing where the rule fails, and of one item more in front of
those for which it holds. -/
theorem Reading.repeated_gives {read : (s : List Char) → Reading α s}
    {P : List Char → List (Gap × α) → List Char → Prop}
    (hnil : ∀ s, (read (takeGap s).2).Fails → P s [] s)
    (hcons : ∀ s a r more rest, (read (takeGap s).2).Finds a r → P r more rest →
      P s (((takeGap s).1, a) :: more) rest) (s : List Char) :
    (Reading.repeated read s).Gives (P s) := by
  fun_induction Reading.repeated read s with
  | case1 s before first hnone => exact hnil s hnone
  | case2 s before first a rest hfind shorter more ih =>
    exact hcons s a rest.1 _ _ ⟨rest.2, hfind⟩ ih

/-- A fixed word is what the text starts with. -/
theorem Reading.word_gives (word : String) (s : List Char) (nonempty : 0 < word.toList.length) :
    (Reading.word word s nonempty).Gives fun _ rest => s = word.toList ++ rest := by
  intro _ rest hfinds
  obtain ⟨hlen, hfound⟩ := hfinds
  unfold Reading.word at hfound
  split at hfound
  · next after hdrop =>
    cases hfound
    exact dropWord?_eq_some_iff.mp hdrop
  · cases hfound

/-- A mark is what the text starts with. -/
theorem Reading.mark_gives (c : Char) (s : List Char) :
    (Reading.mark c s).Gives fun _ rest => s = c :: rest := by
  intro _ rest hfinds
  obtain ⟨hlen, hfound⟩ := hfinds
  cases s with
  | nil => cases hfound
  | cons d s =>
    simp only [Reading.mark] at hfound
    split at hfound
    · next hc =>
      cases hfound
      rw [hc]
    · cases hfound

/-- A word that is read character by character is what its scanner takes. -/
theorem Reading.atom_gives {rule : Rule} {scanned : Option (α × List Char)}
    {shorter : ∀ a rest, scanned = some (a, rest) → rest.length < s.length}
    (h : ∀ a rest, scanned = some (a, rest) → P a rest) :
    (Reading.atom rule s scanned shorter).Gives P := by
  intro a rest hfinds
  obtain ⟨hlen, hfound⟩ := hfinds
  unfold Reading.atom at hfound
  split at hfound
  · cases hfound
    exact h _ _ rfl
  · cases hfound

end Gives

end PreferenceInjector.Declaration
