import PreferenceInjector.Derive.SnakeCase
import PreferenceInjector.Proofs.Declaration.Conversion

/-!
# The words of a name

Snake case is the words of a name in lower case with low lines between them: the words are what
capitals and low lines separate. What the case and the low lines of a name said is lost, and
nothing else is: two names have the same snake case exactly when their words differ in case only.
So snake case tells names apart that are written in camel case without capitals in a row, but
neither these from other names nor other names from each other.
-/

namespace PreferenceInjector.Derive

/-! ### Words -/

/-- The words of characters that follow `before`; the first one may continue the word before it. -/
def wordsAfter (before : Option Char) : List Char → List (List Char)
  | [] => [[]]
  | c :: rest =>
    let words := wordsAfter (some c) rest
    if c = '_' then [] :: words
    else if Unicode.isUppercase c && startsWord before rest.head? then
      [] :: words.modifyHead (c :: ·)
    else words.modifyHead (c :: ·)

/-- The words of a name. -/
def wordsOf (name : String) : List (List Char) := wordsAfter none name.toList

/-- A word in lower case. -/
def lowerWord (word : List Char) : List Char :=
  word.flatMap fun c => if Unicode.isUppercase c then Unicode.lowercase c else [c]

/-- The words of the names differ in case only. -/
def SameWords (name other : String) : Prop :=
  (wordsOf name).map lowerWord = (wordsOf other).map lowerWord

instance (name other : String) : Decidable (SameWords name other) :=
  inferInstanceAs (Decidable (_ = _))

/-- The name is made of Latin letters and digits, starts with a capital and has no two capitals in
a row. -/
structure IsCamelCase (name : String) : Prop where
  alphanumeric : ∀ c ∈ name.toList, c.isAlphanum = true
  capital : ∀ c ∈ name.toList.head?, c.isUpper = true
  apart : name.toList.IsChain fun c d => ¬ (c.isUpper = true ∧ d.isUpper = true)

/-! ### Lower case -/

/-- What holds of the characters given by ASCII codes holds of all characters in ASCII. -/
theorem forall_ascii {P : Char → Prop} (h : ∀ n < 128, P (Char.ofNat n)) :
    ∀ c : Char, c.toNat < 128 → P c := by
  intro c hc
  have hcode := h c.toNat hc
  rwa [Char.ofNat_toNat] at hcode

/-- A character that is given by a code has this code. -/
theorem eq_toNat_of_ofNat_eq {n : Nat} {c : Char} (h : Char.ofNat n = c) (hc : c ≠ '\x00') :
    n = c.toNat := by
  by_cases hvalid : n.isValidChar
  · have hchar : Char.ofNat n = Char.ofNatAux n hvalid := dif_pos hvalid
    rw [← h, hchar]
    rfl
  · have hchar : Char.ofNat n = '\x00' := dif_neg hvalid
    exact (hc (h.symm.trans hchar)).elim

/-- No capital is a low line in lower case. -/
theorem lowLine_notMem_lowercase {c : Char} (h : Unicode.isUppercase c = true) :
    '_' ∉ Unicode.lowercase c := by
  by_cases hascii : c.toNat < 128
  · have hcapitals : ∀ c : Char, c.toNat < 128 → c.isUpper = true → '_' ≠ c.toLower :=
      forall_ascii (by decide)
    rw [Unicode.isUppercase, if_pos hascii] at h
    rw [Unicode.lowercase, if_pos hascii, List.mem_singleton]
    exact hcapitals c hascii h
  · rw [Unicode.lowercase, if_neg hascii]
    split
    · decide
    · split
      · next run add hfind =>
        -- All that the table maps is mapped to codes above that of the low line.
        have htable : ∀ entry ∈ Unicode.lowerMappings, 95 < (entry.1.1 : Int) + entry.2 := by
          decide +kernel
        have habove : 95 < (run.1 : Int) + add := htable _ (List.mem_of_find?_eq_some hfind)
        have hrun := List.find?_some hfind
        have hfirst : run.1 ≤ c.toNat := by
          simp only [Unicode.inRun, Bool.and_eq_true, decide_eq_true_eq] at hrun
          exact hrun.1.1
        rw [List.mem_singleton]
        intro hline
        have hcode : _ = 95 := eq_toNat_of_ofNat_eq hline.symm (by decide)
        omega
      · rw [List.mem_singleton]
        intro hline
        rw [← hline] at hascii
        exact hascii (by decide)

/-- Lower case keeps low lines out of a word. -/
theorem lowLine_notMem_lowerWord {word : List Char} (h : '_' ∉ word) : '_' ∉ lowerWord word := by
  intro hline
  obtain ⟨c, hc, hline⟩ := List.mem_flatMap.mp hline
  split at hline
  · next hcapital => exact lowLine_notMem_lowercase hcapital hline
  · rw [List.mem_singleton] at hline
    rw [hline] at h
    exact h hc

/-! ### Joined words -/

/-- There is a first word. -/
theorem exists_wordsAfter_eq_cons (before : Option Char) (text : List Char) :
    ∃ word words, wordsAfter before text = word :: words := by
  induction text generalizing before with
  | nil => exact ⟨[], [], rfl⟩
  | cons c rest ih =>
    obtain ⟨word, words, hrest⟩ := ih (some c)
    simp only [wordsAfter, hrest, List.modifyHead_cons]
    split
    · exact ⟨_, _, rfl⟩
    · split <;> exact ⟨_, _, rfl⟩

/-- No word has a low line. -/
theorem lowLine_notMem_wordsAfter (before : Option Char) (text : List Char) :
    ∀ word ∈ wordsAfter before text, '_' ∉ word := by
  induction text generalizing before with
  | nil => simp [wordsAfter]
  | cons c rest ih =>
    obtain ⟨word, words, hrest⟩ := exists_wordsAfter_eq_cons (some c) rest
    have hwords := ih (some c)
    simp only [wordsAfter, hrest, List.modifyHead_cons] at hwords ⊢
    split
    · simpa using hwords
    · next hline => split <;> simpa [Ne.symm hline] using hwords

/-- Snake case joins the words in lower case with low lines. -/
theorem snakeCaseAfter_eq_intercalate (before : Option Char) (text : List Char) :
    snakeCaseAfter before text = ['_'].intercalate ((wordsAfter before text).map lowerWord) := by
  induction text generalizing before with
  | nil => rfl
  | cons c rest ih =>
    obtain ⟨word, words, hrest⟩ := exists_wordsAfter_eq_cons (some c) rest
    have hjoined : ['_'].intercalate ((c :: word) :: words |>.map lowerWord) =
        lowerWord [c] ++ snakeCaseAfter (some c) rest := by
      rw [ih, hrest]
      cases words <;> simp [lowerWord]
    have hstarted : ['_'].intercalate ([] :: (c :: word) :: words |>.map lowerWord) =
        '_' :: (lowerWord [c] ++ snakeCaseAfter (some c) rest) := by
      rw [← hjoined]
      simp [lowerWord]
    simp only [snakeCaseAfter, wordsAfter, hrest, List.modifyHead_cons]
    by_cases hline : c = '_'
    · have hsmall : Unicode.isUppercase c = false := by
        rw [hline]
        decide
      rw [if_pos hline, ih, hrest, hsmall, hline]
      simp [lowerWord]
    · rw [if_neg hline]
      by_cases hcapital : Unicode.isUppercase c = true
      · cases hstarts : startsWord before rest.head?
        · simpa [hcapital, lowerWord] using hjoined.symm
        · simpa [hcapital, lowerWord] using hstarted.symm
      · simpa [hcapital, lowerWord] using hjoined.symm

/-- Names have the same snake case exactly when they have the same words. -/
theorem snakeCase_eq_iff {name other : String} :
    snakeCase name = snakeCase other ↔ SameWords name other := by
  -- The words in lower case are what the low lines of the snake case separate.
  have hwords : ∀ text : String, (snakeCaseAfter none text.toList).splitOn '_' =
      (wordsOf text).map lowerWord := by
    intro text
    obtain ⟨word, words, htext⟩ := exists_wordsAfter_eq_cons none text.toList
    rw [snakeCaseAfter_eq_intercalate, List.splitOn_intercalate, wordsOf]
    · exact List.forall_mem_map.mpr fun found hfound =>
        lowLine_notMem_lowerWord (lowLine_notMem_wordsAfter none _ found hfound)
    · simp [htext]
  constructor
  · intro h
    rw [snakeCase, snakeCase, String.ofList_inj] at h
    rw [SameWords, ← hwords, ← hwords, h]
  · intro h
    rw [snakeCase, snakeCase, snakeCaseAfter_eq_intercalate, snakeCaseAfter_eq_intercalate]
    exact congrArg (fun words => String.ofList (['_'].intercalate words)) h

example : snakeCase "URLCache" = "url_cache" ∧ SameWords "URLCache" "UrlCache" := by
  decide +kernel

/-! ### Camel case -/

/-- A word with a capital in front. -/
def capitalized : List Char → List Char
  | [] => []
  | c :: rest => c.toUpper :: rest

/-- A Latin letter or digit is a capital, a small letter or a digit. -/
theorem isAlphanum_iff {c : Char} :
    c.isAlphanum = true ↔ (c.isUpper = true ∨ c.isLower = true) ∨ c.isDigit = true := by
  rw [← Bool.or_eq_true, ← Bool.or_eq_true]
  rfl

/-- A Latin letter or digit is in ASCII. -/
theorem toNat_lt_of_isAlphanum {c : Char} (h : c.isAlphanum = true) : c.toNat < 128 := by
  rcases Bool.or_eq_true_iff.mp h with hletter | hdigit
  · exact Nat.lt_of_le_of_lt (Declaration.range_of_isAlpha hletter).2 (by decide)
  · exact Nat.lt_of_le_of_lt (Char.isDigit_iff_toNat.mp hdigit).2 (by decide)

/-- A low line is no letter. -/
theorem ne_lowLine_of_isAlphanum {c : Char} (h : c.isAlphanum = true) : c ≠ '_' := by
  intro hline
  rw [hline] at h
  exact absurd h (by decide)

/-- A capital behind a Latin letter or digit that is none starts a word. -/
theorem startsWord_of_isAlphanum {c : Char} (h : c.isAlphanum = true) (hsmall : c.isUpper = false)
    (after : Option Char) : startsWord (some c) after = true := by
  have hkind : (Unicode.isLowercase c || c.isDigit) = true := by
    rw [Unicode.isLowercase, if_pos (toNat_lt_of_isAlphanum h)]
    simpa [isAlphanum_iff, hsmall] using h
  simp [startsWord, ne_lowLine_of_isAlphanum h, hkind]

/-- A capital with small letters and digits behind it is its lower case with a capital in front. -/
theorem capitalized_lowerWord {c : Char} (h : c.isUpper = true) {word : List Char}
    (hword : lowerWord word = word) : capitalized (lowerWord (c :: word)) = c :: word := by
  have hascii : c.toNat < 128 := toNat_lt_of_isAlphanum (isAlphanum_iff.mpr (.inl (.inl h)))
  have hcapital : ∀ c : Char, c.toNat < 128 → c.isUpper = true → c.toLower.toUpper = c :=
    forall_ascii (by decide)
  have hlower : lowerWord (c :: word) = c.toLower :: word := by
    rw [lowerWord, List.flatMap_cons, ← lowerWord, hword, Unicode.isUppercase, if_pos hascii,
      if_pos h, Unicode.lowercase, if_pos hascii]
    rfl
  rw [hlower, capitalized, hcapital c hascii h]

/-- In camel case, what follows a character is small letters and digits up to the next capital, and
then words that are their own lower case with a capital in front. -/
theorem exists_wordsAfter_of_isChain {before : Char} {text : List Char}
    (halphanumeric : ∀ c ∈ before :: text, c.isAlphanum = true)
    (hapart : (before :: text).IsChain fun c d => ¬ (c.isUpper = true ∧ d.isUpper = true)) :
    ∃ word words, wordsAfter (some before) text = word :: words ∧ lowerWord word = word ∧
      word ++ (words.map (capitalized ∘ lowerWord)).flatten = text := by
  induction text generalizing before with
  | nil => exact ⟨[], [], rfl, rfl, rfl⟩
  | cons c rest ih =>
    obtain ⟨hbefore, hafter⟩ := List.forall_mem_cons.mp halphanumeric
    obtain ⟨hcapitals, hchain⟩ := List.isChain_cons_cons.mp hapart
    obtain ⟨word, words, hrest, hword, htext⟩ := ih hafter hchain
    have hc := hafter c List.mem_cons_self
    have hupper : Unicode.isUppercase c = c.isUpper := by
      rw [Unicode.isUppercase, if_pos (toNat_lt_of_isAlphanum hc)]
    rw [wordsAfter, if_neg (ne_lowLine_of_isAlphanum hc), hrest, hupper, List.modifyHead_cons]
    -- A capital ends the word before it, because it does not follow another capital.
    cases hcapital : c.isUpper with
    | true =>
      have hsmall : before.isUpper = false := by simpa [hcapital] using hcapitals
      refine ⟨[], (c :: word) :: words, ?_, rfl, ?_⟩
      · rw [startsWord_of_isAlphanum hbefore hsmall]
        rfl
      · simp [capitalized_lowerWord hcapital hword, htext]
    | false =>
      refine ⟨c :: word, words, rfl, ?_, ?_⟩
      · rw [lowerWord, List.flatMap_cons, ← lowerWord, hword, hupper, hcapital]
        rfl
      · rw [List.cons_append, htext]

/-- A name in camel case is its words in lower case with capitals in front. -/
theorem IsCamelCase.eq_flatten {name : String} (h : IsCamelCase name) :
    name.toList = ((wordsOf name).map (capitalized ∘ lowerWord)).flatten := by
  obtain ⟨halphanumeric, hcapital, hapart⟩ := h
  rw [wordsOf]
  cases hname : name.toList with
  | nil => rfl
  | cons c rest =>
    rw [hname] at halphanumeric hcapital hapart
    obtain ⟨word, words, hrest, hword, htext⟩ := exists_wordsAfter_of_isChain halphanumeric hapart
    have hc : c.isUpper = true := hcapital c rfl
    have hline : c ≠ '_' := ne_lowLine_of_isAlphanum (halphanumeric c List.mem_cons_self)
    rw [wordsAfter, if_neg hline, hrest]
    simp [startsWord, capitalized_lowerWord hc hword, htext]

/-- Names in camel case with the same words are the same. -/
theorem SameWords.eq {name other : String} (h : SameWords name other) (hname : IsCamelCase name)
    (hother : IsCamelCase other) : name = other := by
  rw [← String.toList_inj, hname.eq_flatten, hother.eq_flatten, ← List.map_map, ← List.map_map, h]

end PreferenceInjector.Derive
