import PreferenceInjector.Declaration.Report
import PreferenceInjector.Proofs.Declaration.Scanning
import PreferenceInjector.Proofs.FileTree.PathTexts

/-!
# Texts of explanations

What an explanation is written with: the line and the column of a place, the line of the text that
holds the place with a mark below it, and the names of the rules that were expected there. A line
reaches from one line feed to the next one, which belongs to it. The names are enumerated, and can
be read off their enumeration again.
-/

namespace PreferenceInjector.Declaration

/-- The place behind `before` is in the given line and column, both counted from one: the line
begins behind the last line feed, and its characters up to the place are counted. -/
def IsAt (before : List Char) (line column : Nat) : Prop :=
  ∃ earlier current, before = earlier ++ current ∧ (∀ c ∈ earlier.getLast?, c = '\n') ∧
    '\n' ∉ current ∧ line = earlier.count '\n' + 1 ∧ column = current.length + 1

/-- The line that holds a position in a text: it begins behind a line feed or with the text, and
ends with the next line feed or with the text. -/
def IsLineAt (s : List Char) (position : Nat) (line : List Char) : Prop :=
  ∃ earlier current rest later, s = earlier ++ current ++ (rest ++ later) ∧
    (earlier ++ current).length = position ∧ line = current ++ rest ∧
    (∀ c ∈ earlier.getLast?, c = '\n') ∧ '\n' ∉ current ∧
    '\n' ∉ rest.dropLast ∧ (rest.getLast? = some '\n' ∨ later = [])

/-- A line ends at the position. -/
def EndsLine (s : List Char) (position : Nat) : Prop :=
  s[position]? = some '\n' ∨ s[position]? = some '\r'

/-- How the line that holds a position is drawn, and what stands below it in front of the mark: the
characters that end the line are seen when the position is at one of them, and are left out
otherwise; the mark is in the column of the position when none of them is left out before it. -/
structure IsDrawn (s : List Char) (position column : Nat) (shown underline : List Char) :
    Prop where
  line : ∃ line, IsLineAt s position line ∧
    (EndsLine s position →
      shown = line.map fun c => if c = '\r' then '␍' else if c = '\n' then '␊' else c) ∧
    (¬ EndsLine s position → shown = line.filter fun c => c ≠ '\r' ∧ c ≠ '\n')
  blank : underline = (shown.take (column - 1)).map fun c => if c = '\t' then '\t' else ' '
  below : '\r' ∉ s.take position → underline.length + 1 = column

/-! ### Lines and columns -/

/-- The characters behind the last line feed are those of the last line. -/
theorem takeWhile_reverse_append {earlier current : List Char}
    (hearlier : ∀ c ∈ earlier.getLast?, c = '\n') (hcurrent : '\n' ∉ current) :
    (earlier ++ current).reverse.takeWhile (· != '\n') = current.reverse := by
  rw [List.reverse_append]
  refine takeWhile_append_stop ?_ ?_
  · intro c hc
    have hne : c ≠ '\n' := fun h => hcurrent (h ▸ List.mem_reverse.mp hc)
    simpa using hne
  · intro c hc
    rw [List.head?_reverse] at hc
    simp [hearlier c hc]

/-- Every text is cut behind its last line feed. -/
theorem exists_last_line (before : List Char) : ∃ earlier current, before = earlier ++ current ∧
    (∀ c ∈ earlier.getLast?, c = '\n') ∧ '\n' ∉ current := by
  by_cases hfeed : '\n' ∈ before
  · obtain ⟨earlier, current, hbefore, hcurrent⟩ := exists_eq_append_of_mem hfeed
    exact ⟨earlier ++ ['\n'], current, by simp [hbefore], by simp, hcurrent⟩
  · exact ⟨[], before, rfl, by simp, hfeed⟩

/-- A place has one line and column. -/
theorem IsAt.unique {before : List Char} {line column line' column' : Nat}
    (h : IsAt before line column) (h' : IsAt before line' column') :
    line = line' ∧ column = column' := by
  have hplace : ∀ {line column}, IsAt before line column →
      line = before.count '\n' + 1 ∧
        column = (before.reverse.takeWhile (· != '\n')).length + 1 := by
    rintro _ _ ⟨earlier, current, rfl, hearlier, hcurrent, rfl, rfl⟩
    rw [takeWhile_reverse_append hearlier hcurrent, List.count_append,
      List.count_eq_zero.mpr hcurrent, List.length_reverse]
    exact ⟨rfl, rfl⟩
  exact ⟨(hplace h).1.trans (hplace h').1.symm, (hplace h).2.trans (hplace h').2.symm⟩

/-- Every text is cut at its next line feed, which goes with what is in front of it. -/
theorem exists_rest_of_line (after : List Char) : ∃ later,
    after = (after.takeWhile (· != '\n') ++ if after.contains '\n' then ['\n'] else []) ++ later ∧
      (after.contains '\n' = false → later = []) := by
  by_cases hfeed : '\n' ∈ after
  · obtain ⟨ahead, later, hafter, hahead⟩ := List.eq_append_cons_of_mem hfeed
    have htake : after.takeWhile (· != '\n') = ahead := by
      rw [hafter]
      refine takeWhile_append_stop ?_ (by simp)
      intro c hc
      have hne : c ≠ '\n' := fun h => hahead (h ▸ hc)
      simpa using hne
    refine ⟨later, ?_, fun h => ?_⟩
    · rw [htake, if_pos (by simpa using hfeed), hafter]
      simp
    · simp [hfeed] at h
  · have htake : after.takeWhile (· != '\n') = after := by
      rw [List.takeWhile_eq_self_iff]
      intro c hc
      have hne : c ≠ '\n' := fun h => hfeed (h ▸ hc)
      simpa using hne
    refine ⟨[], ?_, fun _ => rfl⟩
    rw [htake, if_neg (by simpa using hfeed)]
    simp

/-- The reported line and column are those of the place. -/
theorem isAt_lineAndColumn (before : List Char) :
    IsAt before (lineAndColumn before).1 (lineAndColumn before).2 := by
  obtain ⟨earlier, current, rfl, hearlier, hcurrent⟩ := exists_last_line before
  refine ⟨earlier, current, rfl, hearlier, hcurrent, ?_, ?_⟩
  · simp [lineAndColumn, List.count_eq_zero.mpr hcurrent]
  · rw [lineAndColumn, takeWhile_reverse_append hearlier hcurrent, List.length_reverse]

/-! ### The line with the mark -/

/-- The characters of the line around a place. -/
def lineAround (before after : List Char) : List Char :=
  (before.reverse.takeWhile (· != '\n')).reverse ++ after.takeWhile (· != '\n') ++
    if after.contains '\n' then ['\n'] else []

/-- The characters around a place are the line that holds it. -/
theorem isLineAt_lineAround (before after : List Char) :
    IsLineAt (before ++ after) before.length (lineAround before after) := by
  obtain ⟨earlier, current, rfl, hearlier, hcurrent⟩ := exists_last_line before
  obtain ⟨later, hafter, hlast⟩ := exists_rest_of_line after
  refine ⟨earlier, current, _, later, congrArg _ hafter, rfl, ?_, hearlier, hcurrent, ?_, ?_⟩
  · rw [lineAround, takeWhile_reverse_append hearlier hcurrent, List.reverse_reverse,
      List.append_assoc]
  · have hahead : '\n' ∉ after.takeWhile (· != '\n') := fun hmem =>
      absurd (List.mem_takeWhile_imp hmem) (by simp)
    split_ifs
    · rwa [List.dropLast_concat]
    · rw [List.append_nil]
      exact fun hmem => hahead (List.mem_of_mem_dropLast hmem)
  · by_cases hfeed : after.contains '\n' = true
    · rw [if_pos hfeed]
      exact .inl List.getLast?_concat
    · exact .inr (hlast (Bool.not_eq_true _ ▸ hfeed))

/-- At the end of a line all of its characters are shown. -/
theorem shownLine_of_endsLine {before after : List Char}
    (h : after.head? = some '\n' ∨ after.head? = some '\r') :
    shownLine before after = (lineAround before after).map fun c =>
      if c = '\r' then '␍' else if c = '\n' then '␊' else c := by
  cases after with
  | nil => simp at h
  | cons c rest => rcases h with hc | hc <;> cases hc <;> rfl

/-- In front of the end of a line the characters that end it are left out. -/
theorem shownLine_of_not_endsLine {before after : List Char}
    (h : ¬ (after.head? = some '\n' ∨ after.head? = some '\r')) :
    shownLine before after = (lineAround before after).filter fun c => c ≠ '\r' ∧ c ≠ '\n' := by
  have hfilter : shownLine before after =
      (lineAround before after).filter fun c => c != '\r' && c != '\n' := by
    rw [shownLine]
    · rfl
    · rintro rest rfl
      exact h (.inl rfl)
    · rintro rest rfl
      exact h (.inr rfl)
  rw [hfilter]
  refine congrArg (List.filter · _) (funext fun c => ?_)
  rw [Bool.eq_iff_iff]
  simp

/-- Nothing in front of a place is left out of its line without a carriage return there. -/
theorem length_current_le_shownLine {before after : List Char} (hreturn : '\r' ∉ before) :
    (before.reverse.takeWhile (· != '\n')).length ≤ (shownLine before after).length := by
  by_cases hend : after.head? = some '\n' ∨ after.head? = some '\r'
  · rw [shownLine_of_endsLine hend, lineAround]
    simp only [List.length_map, List.length_append, List.length_reverse]
    omega
  · have hkept : ((before.reverse.takeWhile (· != '\n')).reverse.filter
        fun c => c ≠ '\r' ∧ c ≠ '\n') = (before.reverse.takeWhile (· != '\n')).reverse := by
      rw [List.filter_eq_self]
      intro c hc
      have hmem := List.mem_reverse.mp hc
      have hne : c ≠ '\n' := by simpa using List.mem_takeWhile_imp hmem
      have hne' : c ≠ '\r' := fun h =>
        hreturn (h ▸ List.mem_reverse.mp (List.takeWhile_subset _ hmem))
      simp [hne, hne']
    rw [shownLine_of_not_endsLine hend, lineAround, List.append_assoc, List.filter_append, hkept,
      List.length_append, List.length_reverse]
    omega

/-- The line that is shown is the one that holds the place, with the mark in its column. -/
theorem isDrawn_shownLine {s : List Char} {position : Nat} (h : position ≤ s.length) :
    IsDrawn s position (lineAndColumn (s.take position)).2
      (shownLine (s.take position) (s.drop position))
      (((shownLine (s.take position) (s.drop position)).take
        ((lineAndColumn (s.take position)).2 - 1)).map
          fun c => if c = '\t' then '\t' else ' ') := by
  have hends : EndsLine s position ↔ (s.drop position).head? = some '\n' ∨
      (s.drop position).head? = some '\r' := by
    rw [EndsLine, List.head?_drop]
  refine ⟨⟨lineAround (s.take position) (s.drop position), ?_, ?_, ?_⟩, rfl, ?_⟩
  · have hline := isLineAt_lineAround (s.take position) (s.drop position)
    rwa [List.take_append_drop, List.length_take_of_le h] at hline
  · exact fun hend => shownLine_of_endsLine (hends.mp hend)
  · exact fun hend => shownLine_of_not_endsLine (hends.not.mp hend)
  · intro hreturn
    rw [List.length_map, List.length_take, lineAndColumn, Nat.add_sub_cancel,
      Nat.min_eq_left (length_current_le_shownLine hreturn)]

/-! ### Enumerations -/

/-- A text enumerates names: one alone, two around an `or`, and more with a comma behind each but
the last one, and an `or` in front of that. -/
inductive Enumerates : List String → String → Prop
  | one (name) : Enumerates [name] name
  | two (first last) : Enumerates [first, last] (first ++ " or " ++ last)
  | more {names} (last) (hmany : 2 ≤ names.length) :
    Enumerates (names ++ [last]) (", ".intercalate names ++ ", or " ++ last)

/-- The alternatives enumerate the names. -/
theorem enumerates_alternatives {names : List String} (hne : names ≠ []) :
    Enumerates names (alternatives names) := by
  match names with
  | [] => exact (hne rfl).elim
  | [name] => exact .one name
  | [first, last] => exact .two first last
  | first :: second :: third :: rest =>
    obtain ⟨before, last, hnames⟩ := List.eq_nil_or_concat' (first :: second :: third :: rest)
      |>.resolve_left hne
    have hmany : 2 ≤ before.length := by
      have hlength := congrArg List.length hnames
      simp only [List.length_cons, List.length_append, List.length_nil] at hlength
      omega
    rw [alternatives.eq_4 _ (by simp) (by simp) (by simp), hnames, List.dropLast_concat,
      List.getLast?_concat, Option.getD_some]
    exact .more last hmany

/-- A name that can be told apart in an enumeration. -/
structure IsWord (name : String) : Prop where
  noBlank : ' ' ∉ name.toList
  noComma : ',' ∉ name.toList
  notOr : name ≠ "or"

/-- A word without its commas. -/
def withoutCommas (word : String) : String := String.ofList (word.toList.filter (· ≠ ','))

/-- The names between the blanks of an enumeration. -/
def namesIn (text : String) : List String :=
  ((splitAt ' ' text).filter (· ≠ "or")).map withoutCommas

/-- The names are read off the words of an enumeration. -/
theorem namesIn_intercalate {words : List String} (hne : words ≠ [])
    (h : ∀ word ∈ words, ' ' ∉ word.toList) : namesIn (" ".intercalate words) =
      (words.filter (· ≠ "or")).map withoutCommas := by
  have hwords : splitAt ' ' (" ".intercalate words) = words := splitAt_intercalate hne h
  rw [namesIn, hwords]

/-- A name has no commas to lose. -/
theorem IsWord.withoutCommas_eq {name : String} (h : IsWord name) : withoutCommas name = name := by
  have hkept : name.toList.filter (· ≠ ',') = name.toList := by
    rw [List.filter_eq_self]
    intro c hc
    have hne : c ≠ ',' := fun hcomma => h.noComma (hcomma ▸ hc)
    simpa using hne
  rw [withoutCommas, hkept, String.ofList_toList]

/-- A name loses the comma behind it. -/
theorem IsWord.withoutCommas_append {name : String} (h : IsWord name) :
    withoutCommas (name ++ ",") = name := by
  rw [withoutCommas, String.toList_append, List.filter_append, String.ofList_append]
  exact (congrArg (· ++ "") h.withoutCommas_eq).trans String.append_empty

/-- Names that are enumerated with commas are so as words between blanks. -/
theorem intercalate_commas {names : List String} (hne : names ≠ []) (last : String) :
    ", ".intercalate names ++ ", or " ++ last =
      " ".intercalate (names.map (· ++ ",") ++ ["or", last]) := by
  induction names with
  | nil => exact (hne rfl).elim
  | cons name rest ih =>
    cases rest with
    | nil => simp [← String.toList_inj, String.intercalate_cons_cons]
    | cons second more =>
      have hrest := ih (List.cons_ne_nil _ _)
      rw [List.map_cons, List.cons_append] at hrest
      rw [List.map_cons, List.map_cons, List.cons_append, List.cons_append,
        String.intercalate_cons_cons, String.intercalate_cons_cons, ← hrest]
      simp [← String.toList_inj]

/-- An enumeration tells its names. -/
theorem Enumerates.namesIn_eq {names : List String} {text : String} (h : Enumerates names text)
    (hnames : ∀ name ∈ names, IsWord name) : namesIn text = names := by
  cases h with
  | one =>
    have hword := hnames text (by simp)
    have hread := namesIn_intercalate (List.cons_ne_nil text [])
      (List.forall_mem_singleton.mpr hword.noBlank)
    simpa [hword.notOr, hword.withoutCommas_eq] using hread
  | two first last =>
    have hfirst := hnames first (by simp)
    have hlast := hnames last (by simp)
    have hread := namesIn_intercalate (List.cons_ne_nil first ["or", last])
      (by simp [hfirst.noBlank, hlast.noBlank])
    have htext : " ".intercalate [first, "or", last] = first ++ " or " ++ last := by
      simp [← String.toList_inj, String.intercalate_cons_cons]
    rw [htext] at hread
    simpa [hfirst.notOr, hlast.notOr, hfirst.withoutCommas_eq, hlast.withoutCommas_eq] using hread
  | @more before last hmany =>
    have hne : before ≠ [] := List.ne_nil_of_length_pos (by omega)
    have hbefore : ∀ name ∈ before, IsWord name := fun name hname => hnames name (by simp [hname])
    have hlast := hnames last (by simp)
    have hblank : ∀ word ∈ before.map (· ++ ",") ++ ["or", last], ' ' ∉ word.toList := by
      intro word hword
      rcases List.mem_append.mp hword with hcomma | hend
      · obtain ⟨name, hname, rfl⟩ := List.mem_map.mp hcomma
        simp [(hbefore name hname).noBlank]
      · rcases List.mem_pair.mp hend with rfl | rfl
        · decide
        · exact hlast.noBlank
    have hkept : (before.map (· ++ ",")).filter (· ≠ "or") = before.map (· ++ ",") := by
      rw [List.filter_eq_self]
      intro word hword
      obtain ⟨name, hname, rfl⟩ := List.mem_map.mp hword
      have hne : name ++ "," ≠ "or" := by
        intro hor
        have hcomma : ',' ∈ (name ++ ",").toList := by simp
        rw [hor] at hcomma
        revert hcomma
        decide
      simpa using hne
    have hdropped : (before.map (· ++ ",")).map withoutCommas = before := by
      rw [List.map_map]
      conv_rhs => rw [← List.map_id before]
      exact List.map_congr_left fun name hname => (hbefore name hname).withoutCommas_append
    have hend : ["or", last].filter (· ≠ "or") = [last] := by
      simp [hlast.notOr]
    rw [intercalate_commas hne, namesIn_intercalate (by simp) hblank, List.filter_append, hkept,
      hend, List.map_append, hdropped, List.map_singleton, hlast.withoutCommas_eq]

/-- An enumeration of rules tells which ones they are, and their order. -/
theorem Enumerates.rules_unique {rules other : List Rule} {text : String}
    (h : Enumerates (rules.map Rule.title) text) (hother : Enumerates (other.map Rule.title) text) :
    rules = other := by
  have hwords : ∀ rules : List Rule, ∀ name ∈ rules.map Rule.title, IsWord name := by
    intro rules name hname
    obtain ⟨rule, -, rfl⟩ := List.mem_map.mp hname
    cases rule <;> exact ⟨by decide, by decide, by decide⟩
  have htitles : Function.Injective Rule.title := by
    intro rule rule' hrules
    revert hrules
    cases rule <;> cases rule' <;> decide
  have hnames := (h.namesIn_eq (hwords rules)).symm.trans (hother.namesIn_eq (hwords other))
  exact List.map_injective_iff.mpr htitles hnames

end PreferenceInjector.Declaration
