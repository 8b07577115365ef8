import PreferenceInjector.Proofs.Derive.Words

/-!
# Low lines in snake case

In a name of Latin letters, digits and low lines, snake case keeps every character, in lower case,
and adds low lines. One is added directly before each capital that starts a word inside the name: a
capital behind a small letter or a digit, or behind a capital and before a small letter. Nowhere
else is one added, so that no added low line stands at an end or beside another one, and a name in
snake case stays as it is.
-/

namespace PreferenceInjector.Derive

/-- The text is made of Latin letters, digits and low lines. -/
def IsPlainName (text : List Char) : Prop := ∀ c ∈ text, c.isAlphanum = true ∨ c = '_'

/-- A word starts inside a name between its two parts: the second one begins with a capital behind a
small letter or a digit, or with a capital behind a capital and before a small letter. -/
def BeginsWord (left right : List Char) : Prop :=
  ∃ before ∈ left.getLast?, ∃ c ∈ right.head?, c.isUpper = true ∧
    (before.isLower = true ∨ before.isDigit = true ∨
      before.isUpper = true ∧ ∃ after ∈ right[1]?, after.isLower = true)

/-- A character of a name in snake case. -/
inductive Mark where
  /-- A character of the name itself. -/
  | kept (c : Char)
  /-- A low line that is added. -/
  | added
  deriving DecidableEq

/-- How a mark is written. -/
def Mark.written : Mark → Char
  | kept c => c.toLower
  | added => '_'

/-- What stands in the name for a mark. -/
def Mark.origin : Mark → List Char
  | kept c => [c]
  | added => []

@[simp] theorem Mark.written_kept (c : Char) : (kept c).written = c.toLower := rfl

@[simp] theorem Mark.written_added : added.written = '_' := rfl

@[simp] theorem Mark.origin_kept (c : Char) : (kept c).origin = [c] := rfl

@[simp] theorem Mark.origin_added : added.origin = [] := rfl

/-- The marks are the characters of the name with a low line added between two parts of it exactly
when a word starts there, and no added low line is written at an end or beside another one. -/
structure SeparatesWords (name : List Char) (marks : List Mark) : Prop where
  origin : marks.flatMap (·.origin) = name
  starts : ∀ before after, marks = before ++ .added :: after →
    BeginsWord (before.flatMap (·.origin)) (after.flatMap (·.origin))
  started : ∀ left right, left ++ right = name → BeginsWord left right → ∃ before after,
    marks = before ++ .added :: after ∧ before.flatMap (·.origin) = left ∧
      after.flatMap (·.origin) = right
  apart : ∀ before after, marks = before ++ .added :: after → ∃ c d,
    before.getLast? = some (.kept c) ∧ after.head? = some (.kept d) ∧
      c.toLower ≠ '_' ∧ d.toLower ≠ '_'

/-- The marks of characters that follow `before`. -/
def marksAfter (before : Option Char) : List Char → List Mark
  | [] => []
  | c :: rest =>
    (if c.isUpper && startsWord before rest.head? then [.added] else []) ++
      .kept c :: marksAfter (some c) rest

/-! ### Characters -/

variable {c : Char} {text left right : List Char}

/-- A Latin letter, a digit or a low line is in ASCII. -/
theorem toNat_lt_of_plain (h : c.isAlphanum = true ∨ c = '_') : c.toNat < 128 := by
  rcases h with halphanumeric | rfl
  · exact toNat_lt_of_isAlphanum halphanumeric
  · decide

/-- In ASCII, the lower case of a character is in ASCII and no capital. -/
theorem toLower_of_ascii (h : c.toNat < 128) :
    c.toLower.toNat < 128 ∧ c.toLower.isUpper = false ∧ (c.toLower = '_' ↔ c = '_') := by
  have hall : ∀ c : Char, c.toNat < 128 →
      c.toLower.toNat < 128 ∧ c.toLower.isUpper = false ∧ (c.toLower = '_' ↔ c = '_') :=
    forall_ascii (by decide)
  exact hall c h

/-- A plain name goes on with a letter, a digit or a low line. -/
theorem IsPlainName.concat (hleft : IsPlainName left) (hc : c.isAlphanum = true ∨ c = '_') :
    IsPlainName (left ++ [c]) := by
  intro d hd
  rcases List.mem_append.mp hd with hd | hd
  · exact hleft d hd
  · rwa [List.mem_singleton.mp hd]

/-- Letters and digits are no low lines. -/
theorem ne_lowLine_of_begins {before : Char}
    (h : before.isLower = true ∨ before.isDigit = true ∨ before.isUpper = true) :
    before ≠ '_' := by
  rintro rfl
  exact absurd h (by decide)

/-- A capital starts a word behind a part of a plain name when it does so behind its last
character. -/
theorem startsWord_iff (hleft : IsPlainName left) (htext : IsPlainName (c :: text)) :
    (c.isUpper && startsWord left.getLast? text.head?) = true ↔ BeginsWord left (c :: text) := by
  have hlower : ∀ d, (d.isAlphanum = true ∨ d = '_') → Unicode.isLowercase d = d.isLower := by
    intro d hd
    rw [Unicode.isLowercase, if_pos (toNat_lt_of_plain hd)]
  have hafter : text.head?.any Unicode.isLowercase = text.head?.any Char.isLower := by
    cases text with
    | nil => rfl
    | cons d text => exact hlower d (htext d (by simp))
  cases hlast : left.getLast? with
  | none => simp [BeginsWord, startsWord, hlast]
  | some before =>
    have hplain := hleft before (List.mem_of_getLast? hlast)
    have hupper : Unicode.isUppercase before = before.isUpper := by
      rw [Unicode.isUppercase, if_pos (toNat_lt_of_plain hplain)]
    have hword : startsWord (some before) text.head? = (before.isLower || before.isDigit ||
        before.isUpper && text.head?.any Char.isLower) := by
      rw [startsWord, hlower before hplain, hupper, hafter]
      by_cases hline : before = '_'
      · rw [if_pos hline, hline]
        rfl
      · rw [if_neg hline]
        cases before.isLower || before.isDigit <;> rfl
    rw [hword]
    simp [BeginsWord, hlast, List.head?_eq_getElem?, or_assoc, Option.any_eq_true]

/-! ### Marks -/

/-- The marks of a text keep its characters. -/
theorem origin_marksAfter (before : Option Char) (text : List Char) :
    (marksAfter before text).flatMap (·.origin) = text := by
  induction text generalizing before with
  | nil => rfl
  | cons c text ih =>
    rw [marksAfter, List.flatMap_append, List.flatMap_cons, ih]
    split <;> rfl

/-- Snake case writes the marks of a plain text. -/
theorem snakeCaseAfter_eq_map (before : Option Char) (h : IsPlainName text) :
    snakeCaseAfter before text = (marksAfter before text).map (·.written) := by
  induction text generalizing before with
  | nil => rfl
  | cons c text ih =>
    obtain ⟨hc, htext⟩ := List.forall_mem_cons.mp h
    have hascii := toNat_lt_of_plain hc
    rw [snakeCaseAfter, marksAfter, ih (some c) htext, List.map_append, List.map_cons,
      Unicode.isUppercase, if_pos hascii, Unicode.lowercase, if_pos hascii]
    cases hcapital : c.isUpper with
    | true => cases startsWord before text.head? <;> rfl
    | false =>
      have hkept : c.toLower = c := by
        have hall : ∀ c : Char, c.toNat < 128 → c.isUpper = false → c.toLower = c :=
          forall_ascii (by decide)
        exact hall c hascii hcapital
      simp [hkept]

/-- Deleting the low lines from what is written leaves the letters and digits in lower case. -/
theorem filter_map_written {marks : List Mark} (h : IsPlainName (marks.flatMap (·.origin))) :
    (marks.map (·.written)).filter (· ≠ '_') =
      ((marks.flatMap (·.origin)).filter (· ≠ '_')).map Char.toLower := by
  induction marks with
  | nil => rfl
  | cons mark marks ih =>
    cases mark with
    | added => simpa using ih h
    | kept c =>
      obtain ⟨hc, hmarks⟩ := List.forall_mem_cons.mp h
      obtain ⟨-, -, hline⟩ := toLower_of_ascii (toNat_lt_of_plain hc)
      rw [List.map_cons, List.flatMap_cons, Mark.written_kept, Mark.origin_kept,
        List.singleton_append, List.filter_cons, List.filter_cons, ih hmarks]
      by_cases h : c = '_' <;> simp [hline, h]

/-- An added low line of marks that follow `left` is before a kept character and behind one, and a
word starts between them. -/
theorem neighbours_of_added (hleft : IsPlainName left) (htext : IsPlainName text)
    {before after : List Mark} (h : marksAfter left.getLast? text = before ++ .added :: after) :
    ∃ c d, (left.map Mark.kept ++ before).getLast? = some (.kept c) ∧
      after.head? = some (.kept d) ∧
      BeginsWord (left ++ before.flatMap (·.origin)) (after.flatMap (·.origin)) := by
  induction text generalizing left before with
  | nil => simp [marksAfter] at h
  | cons e text ih =>
    obtain ⟨he, hrest⟩ := List.forall_mem_cons.mp htext
    -- The marks behind the character `e`, if the added low line is one of them.
    have hlater : ∀ earlier, marksAfter (some e) text = earlier ++ .added :: after →
        ∃ c d, ((left ++ [e]).map Mark.kept ++ earlier).getLast? = some (.kept c) ∧
          after.head? = some (.kept d) ∧
          BeginsWord (left ++ [e] ++ earlier.flatMap (·.origin)) (after.flatMap (·.origin)) :=
      fun earlier hearlier => ih (hleft.concat he) hrest (by rwa [List.getLast?_concat])
    rw [marksAfter] at h
    split at h
    · next hstarts =>
      have hbegins := (startsWord_iff hleft htext).mp hstarts
      match before with
      | [] =>
        obtain ⟨c, hc, -⟩ := hbegins
        cases h
        refine ⟨c, e, ?_, rfl, ?_⟩
        · simpa using hc
        · simpa [origin_marksAfter] using (startsWord_iff hleft htext).mp hstarts
      | [mark] => simp at h
      | mark :: kept :: earlier =>
        obtain ⟨rfl, rfl, hmarks⟩ : mark = .added ∧ kept = .kept e ∧
            marksAfter (some e) text = earlier ++ .added :: after := by
          simpa [eq_comm] using h
        obtain ⟨c, d, hc, hd, hword⟩ := hlater earlier hmarks
        refine ⟨c, d, ?_, hd, ?_⟩
        · simpa [List.getLast?_append, List.getLast?_cons] using hc
        · simpa using hword
    · match before with
      | [] => simp at h
      | kept :: earlier =>
        obtain ⟨rfl, hmarks⟩ : kept = .kept e ∧
            marksAfter (some e) text = earlier ++ .added :: after := by
          simpa [eq_comm] using h
        obtain ⟨c, d, hc, hd, hword⟩ := hlater earlier hmarks
        refine ⟨c, d, ?_, hd, ?_⟩
        · simpa [List.getLast?_append, List.getLast?_cons] using hc
        · simpa using hword

/-- A low line is added where a word starts behind `left` and a part of the text. -/
theorem exists_added {further : List Char} (hleft : IsPlainName left) (htext : IsPlainName text)
    (h : further ++ right = text) (hword : BeginsWord (left ++ further) right) :
    ∃ before after, marksAfter left.getLast? text = before ++ .added :: after ∧
      before.flatMap (·.origin) = further ∧ after.flatMap (·.origin) = right := by
  induction further generalizing left text with
  | nil =>
    obtain rfl : right = text := h
    rw [List.append_nil] at hword
    cases right with
    | nil =>
      obtain ⟨-, -, c, hc, -⟩ := hword
      cases hc
    | cons e right =>
      have hstarts := (startsWord_iff hleft htext).mpr hword
      refine ⟨[], .kept e :: marksAfter (some e) right, ?_, rfl, ?_⟩
      · rw [marksAfter, if_pos hstarts]
        rfl
      · simp [origin_marksAfter]
  | cons e further ih =>
    obtain rfl : e :: (further ++ right) = text := h
    obtain ⟨he, hrest⟩ := List.forall_mem_cons.mp htext
    obtain ⟨before, after, hmarks, hbefore, hafter⟩ :=
      ih (hleft.concat he) hrest rfl (by simpa using hword)
    rw [List.getLast?_concat] at hmarks
    rw [marksAfter, hmarks]
    split
    · exact ⟨.added :: .kept e :: before, after, rfl, by simp [hbefore], hafter⟩
    · exact ⟨.kept e :: before, after, rfl, by simp [hbefore], hafter⟩

/-- The marks of a plain name separate its words. -/
theorem separatesWords_marksAfter {name : List Char} (h : IsPlainName name) :
    SeparatesWords name (marksAfter none name) := by
  have hnone : IsPlainName [] := by simp [IsPlainName]
  have hadded : ∀ before after, marksAfter none name = before ++ .added :: after → ∃ c d,
      before.getLast? = some (.kept c) ∧ after.head? = some (.kept d) ∧
        BeginsWord (before.flatMap (·.origin)) (after.flatMap (·.origin)) :=
    fun before after hmarks => neighbours_of_added hnone h hmarks
  refine ⟨origin_marksAfter none name, ?_, ?_, ?_⟩
  · intro before after hmarks
    obtain ⟨-, -, -, -, hword⟩ := hadded before after hmarks
    exact hword
  · intro left right hsplit hword
    exact exists_added hnone h hsplit hword
  · intro before after hmarks
    obtain ⟨c, d, hc, hd, hword⟩ := hadded before after hmarks
    refine ⟨c, d, hc, hd, ?_⟩
    obtain ⟨earlier, rfl⟩ := List.getLast?_eq_some_iff.mp hc
    obtain ⟨later, rfl⟩ := List.head?_eq_some_iff.mp hd
    obtain ⟨before, hbefore, first, hfirst, hupper, hkind⟩ := hword
    obtain rfl : c = before := by simpa using hbefore
    obtain rfl : d = first := by simpa using hfirst
    have hname : earlier.flatMap Mark.origin ++ c :: d :: later.flatMap Mark.origin = name := by
      rw [← origin_marksAfter none name, hmarks]
      simp
    obtain ⟨-, -, hline⟩ := toLower_of_ascii (toNat_lt_of_plain (h c (by simp [← hname])))
    obtain ⟨-, -, hline'⟩ := toLower_of_ascii (toNat_lt_of_plain (h d (by simp [← hname])))
    rw [Ne, Ne, hline, hline']
    exact ⟨ne_lowLine_of_begins (hkind.imp_right (Or.imp_right And.left)),
      ne_lowLine_of_begins (.inr (.inr hupper))⟩

/-! ### Names -/

/-- Snake case leaves a text without capitals as it is. -/
theorem snakeCaseAfter_eq_self (before : Option Char)
    (h : ∀ c ∈ text, Unicode.isUppercase c = false) : snakeCaseAfter before text = text := by
  induction text generalizing before with
  | nil => rfl
  | cons c text ih =>
    obtain ⟨hc, htext⟩ := List.forall_mem_cons.mp h
    rw [snakeCaseAfter, ih (some c) htext, hc]
    rfl

/-- What is written for marks of a plain name is in ASCII and no capital. -/
theorem written_of_plain {marks : List Mark} (h : IsPlainName (marks.flatMap (·.origin))) :
    ∀ c ∈ marks.map (·.written), c.toNat < 128 ∧ c.isUpper = false := by
  rw [List.forall_mem_map]
  intro mark hmark
  cases mark with
  | added => decide
  | kept c =>
    have hc : c ∈ marks.flatMap (·.origin) := List.mem_flatMap.mpr ⟨_, hmark, by simp⟩
    obtain ⟨hascii, hsmall, -⟩ := toLower_of_ascii (toNat_lt_of_plain (h c hc))
    exact ⟨hascii, hsmall⟩

/-- In snake case, a name of Latin letters, digits and low lines is in lower case, has the same
letters and digits, and has a low line more exactly where a word starts inside it; none of these
stands at an end or beside another low line. The name in snake case is its own snake case. -/
theorem snakeCase_separates_words {name : String} (h : IsPlainName name.toList) :
    (∀ c ∈ (snakeCase name).toList, c.isUpper = false) ∧
    (snakeCase name).toList.filter (· ≠ '_') =
      (name.toList.filter (· ≠ '_')).map Char.toLower ∧
    (∃ marks, SeparatesWords name.toList marks ∧
      (snakeCase name).toList = marks.map (·.written)) ∧
    snakeCase (snakeCase name) = snakeCase name := by
  have horigin := origin_marksAfter none name.toList
  have hwritten : (snakeCase name).toList = (marksAfter none name.toList).map (·.written) := by
    rw [snakeCase, String.toList_ofList, snakeCaseAfter_eq_map none h]
  have hplain : IsPlainName ((marksAfter none name.toList).flatMap (·.origin)) := by rwa [horigin]
  have hsmall := written_of_plain hplain
  rw [← hwritten] at hsmall
  refine ⟨fun c hc => (hsmall c hc).2, ?_, ⟨_, separatesWords_marksAfter h, hwritten⟩, ?_⟩
  · rw [hwritten, filter_map_written hplain, horigin]
  · have hkept : ∀ c ∈ (snakeCase name).toList, Unicode.isUppercase c = false := by
      intro c hc
      obtain ⟨hascii, hc⟩ := hsmall c hc
      rw [Unicode.isUppercase, if_pos hascii, hc]
    rw [snakeCase, snakeCaseAfter_eq_self none hkept, String.ofList_toList]

/-- The words of a name with capitals in a row, a digit and a low line are separated. -/
theorem snakeCase_separates_words_sample :
    IsPlainName "URLCache2_Info".toList ∧
    (∀ c ∈ (snakeCase "URLCache2_Info").toList, c.isUpper = false) ∧
    (snakeCase "URLCache2_Info").toList.filter (· ≠ '_') =
      ("URLCache2_Info".toList.filter (· ≠ '_')).map Char.toLower ∧
    (∃ marks, SeparatesWords "URLCache2_Info".toList marks ∧
      (snakeCase "URLCache2_Info").toList = marks.map (·.written)) ∧
    snakeCase (snakeCase "URLCache2_Info") = snakeCase "URLCache2_Info" := by
  have hall : "URLCache2_Info".toList.all (fun c => c.isAlphanum || c = '_') = true := by decide
  have hplain : IsPlainName "URLCache2_Info".toList := by
    simpa only [IsPlainName, List.all_eq_true, Bool.or_eq_true, decide_eq_true_eq] using hall
  exact ⟨hplain, snakeCase_separates_words hplain⟩

end PreferenceInjector.Derive
