import PreferenceInjector.Proofs.Declaration.FirstBadBlock
import PreferenceInjector.Proofs.Declaration.Furthest
import PreferenceInjector.Proofs.Declaration.ReportTexts
import PreferenceInjector.Proofs.Generation.RefusedFiles
import Mathlib.Data.List.Nodup

/-!
# Places of syntax errors

The explanation of a text that is no declaration file points at a place and lists the rules that
were expected there. The place is the furthest one that any rule reached, and the end of the input
is always missed where the first block begins that cannot be read. So the place lies in this block
or behind it, never in the package clause or in a block before, even though rules are also tried in
vain inside blocks that are read in the end.
-/

namespace PreferenceInjector.Declaration

/-- The explanation of a text points out a place in it, given by its position, line and column,
and the rules expected there. It draws the line that holds the place, and enumerates just these
rules. -/
structure PointsOut (path : String) (s : List Char) (explanation : String)
    (position line column : Nat) (expected : List Rule) : Prop where
  behind : ∀ rest, ReadingEndsAt s rest → s.length - rest.length ≤ position
  inside : position ≤ s.length
  place : IsAt (s.take position) line column
  furthest : ∀ rule left, (missesOf s).Tells rule left → s.length - left ≤ position
  missed : ∀ rule ∈ expected, (missesOf s).Tells rule (s.length - position)
  recorded : ∀ rule ∈ (Furthest.ofText s).rules, rule ∈ expected
  ordered : expected.Sublist Rule.all
  nonempty : expected ≠ []
  once : (expected.map Rule.title).Nodup
  text : ∃ margin shown underline names,
    margin = String.ofList (List.replicate (toString line).length ' ') ∧
    IsDrawn s position column shown underline ∧
    Enumerates (expected.map Rule.title) names ∧
    (∀ other : List Rule, Enumerates (other.map Rule.title) names → other = expected) ∧
    explanation = "\n".intercalate [
      margin ++ "--> " ++ path ++ ":" ++ toString line ++ ":" ++ toString column,
      margin ++ " |",
      toString line ++ " | " ++ String.ofList shown,
      margin ++ " | " ++ String.ofList underline ++ "^---",
      margin ++ " |",
      margin ++ " = expected " ++ names]

/-! ### What was expected -/

/-- Every rule can be listed. -/
theorem Rule.mem_all (rule : Rule) : rule ∈ Rule.all := by
  cases rule <;> decide

/-- The listed rules are those missed at the place. -/
theorem Furthest.mem_expected {furthest : Furthest} {rule : Rule} :
    rule ∈ furthest.expected ↔ rule ∈ furthest.rules := by
  simp [Furthest.expected, Rule.mem_all]

/-- At least one rule is listed. -/
theorem Furthest.expected_ofText_ne_nil (s : List Char) : (Furthest.ofText s).expected ≠ [] := by
  obtain ⟨rule, hrule⟩ := List.exists_mem_of_ne_nil _ (Furthest.ofText_ne_nil s)
  exact List.ne_nil_of_mem (Furthest.mem_expected.mpr hrule)

/-- No name of a rule is listed twice. -/
theorem Furthest.nodup_titles_expected (furthest : Furthest) :
    (furthest.expected.map Rule.title).Nodup := by
  have hall : (Rule.all.map Rule.title).Nodup := by decide
  exact hall.sublist (List.filter_sublist.map Rule.title)

/-! ### The explanation -/

/-- The explanation of a refused text points out the furthest place that a rule reached. -/
theorem report_pointsOut (path : String) (s : List Char) : ∃ line column,
    PointsOut path s (report path s) (s.length - (Furthest.ofText s).left) line column
      (Furthest.ofText s).expected := by
  have hrest := (readDocument s).rest.2
  have hleft := Furthest.ofText_left_le s
  refine ⟨_, _, ?behind, by omega, isAt_lineAndColumn _, ?furthest, ?missed,
    fun _ hrule => Furthest.mem_expected.mpr hrule, List.filter_sublist,
    Furthest.expected_ofText_ne_nil s, Furthest.nodup_titles_expected _, ?text⟩
  case behind =>
    intro rest hends
    rw [← readingEndsAt_iff.mp hends]
    omega
  case furthest =>
    intro rule left htells
    have hreached := Furthest.ofText_reached htells
    omega
  case missed =>
    intro rule hrule
    rw [Nat.sub_sub_self (hleft.trans hrest)]
    exact Furthest.tells_of_mem_ofText (Furthest.mem_expected.mp hrule)
  case text =>
    have hnames : Enumerates ((Furthest.ofText s).expected.map Rule.title) _ :=
      enumerates_alternatives fun hnone =>
        Furthest.expected_ofText_ne_nil s (List.map_eq_nil_iff.mp hnone)
    refine ⟨_, _, _, _, rfl, isDrawn_shownLine (by omega), hnames,
      fun other hother => hother.rules_unique hnames, ?_⟩
    rw [report, ← String.length_toList, ← List.map_const']

/-- No document is read from a text exactly when it does not follow the grammar. -/
theorem not_followsGrammar_iff {text : String} :
    ¬ FollowsGrammar text ↔ Document.ofText? text.toList = none := by
  constructor
  · intro h
    cases hdocument : Document.ofText? text.toList with
    | none => rfl
    | some document => exact (h ⟨document, Document.of_ofText? hdocument⟩).elim
  · rintro hnone ⟨document, hformed, htext⟩
    have hread := Document.ofText?_text hformed
    rw [htext, hnone] at hread
    cases hread

/-- A text that is no declaration file has one place where its package clause and its blocks, read
one after the other, end before the text does. The explanation points out a place that is not in
front of this one, with its line and its column, and names at least one rule that was missed there
and none of them twice. The place is the furthest one that a rule reached, and the rules are those
that the record of the misses keeps for it, in the order of the grammar. -/
theorem refusal_points_behind_last_block {text : String} (h : ¬ FollowsGrammar text)
    (path : String) :
    (∃ rest, rest ≠ [] ∧ ReadingEndsAt text.toList rest ∧
      ∀ other, ReadingEndsAt text.toList other → other = rest) ∧
    ∃ explanation line column,
      (File.ofText path text).outcome = .error (.ungrammatical path explanation) ∧
      PointsOut path text.toList explanation
        (text.toList.length - (Furthest.ofText text.toList).left) line column
        (Furthest.ofText text.toList).expected := by
  constructor
  · have hends : ReadingEndsAt text.toList _ := readDocument_endsAt text.toList
    refine ⟨_, hends.ne_nil_iff.mpr (not_followsGrammar_iff.mp h), hends, ?_⟩
    exact fun other hother => hother.unique hends
  · obtain ⟨line, column, hpoints⟩ := report_pointsOut path text.toList
    refine ⟨report path text.toList, line, column, ?_, hpoints⟩
    rw [File.ofText_of_not_followsGrammar h]
    rfl

/-- A component without a name is pointed out behind the class in front of it, where its name is
expected. -/
theorem refusal_points_behind_last_block_of_unnamed :
    ¬ FollowsGrammar "class A \x7b \x7d\ncomponent \x7b \x7d" ∧
      (File.ofText "broken.prefs" "class A \x7b \x7d\ncomponent \x7b \x7d").outcome =
        .error (.ungrammatical "broken.prefs" (" --> broken.prefs:2:11\n  |\n" ++
          "2 | component \x7b \x7d\n  |           ^---\n  |\n  = expected Identifier")) ∧
      PointsOut "broken.prefs" "class A \x7b \x7d\ncomponent \x7b \x7d".toList
        (" --> broken.prefs:2:11\n  |\n" ++
          "2 | component \x7b \x7d\n  |           ^---\n  |\n  = expected Identifier")
        22 2 11 [.identifier] := by
  have h : ¬ FollowsGrammar "class A \x7b \x7d\ncomponent \x7b \x7d" := by
    rw [not_followsGrammar_iff, ← Option.isNone_iff_eq_none]
    decide +kernel
  obtain ⟨-, explanation, line, column, houtcome, hpoints⟩ :=
    refusal_points_behind_last_block h "broken.prefs"
  have hfurthest : Furthest.ofText "class A \x7b \x7d\ncomponent \x7b \x7d".toList =
      ⟨3, [.identifier]⟩ := by decide +kernel
  have hplace : IsAt ("class A \x7b \x7d\ncomponent \x7b \x7d".toList.take 22) 2 11 :=
    ⟨"class A \x7b \x7d\n".toList, "component ".toList, by decide +kernel, by simp, by simp,
      by decide +kernel, by decide +kernel⟩
  have hexplanation : report "broken.prefs" "class A \x7b \x7d\ncomponent \x7b \x7d".toList =
      " --> broken.prefs:2:11\n  |\n" ++
        "2 | component \x7b \x7d\n  |           ^---\n  |\n  = expected Identifier" := by
    decide +kernel
  rw [hfurthest] at hpoints
  obtain ⟨rfl, rfl⟩ := hpoints.place.unique hplace
  rw [File.ofText_of_not_followsGrammar h, hexplanation] at houtcome
  cases houtcome
  exact ⟨h, by rw [File.ofText_of_not_followsGrammar h, hexplanation]; rfl, hpoints⟩

end PreferenceInjector.Declaration
