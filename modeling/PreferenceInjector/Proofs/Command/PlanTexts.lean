import PreferenceInjector.Proofs.Command.Foretelling
import PreferenceInjector.Proofs.Output.UnitWiring
import PreferenceInjector.Proofs.QualifiedNames
import Mathlib.Tactic.IntervalCases

/-!
# What `check` shows of a plan

As JSON a plan is shown completely: a string ends at the first quote that is not escaped, and a list
or an object where no comma follows, so each value is told from what comes behind it, and two plans
with one text are the same. The summary has a line for each injector, one for each of its
assignments, which begins with blanks, and one with the number of injectors at its end. It tells the
class of each injector and the fields that are filled, with the simple name of the singleton and the
accessor; the packages of the parameter and of the singleton are not shown.
-/

namespace PreferenceInjector.Command

open Declaration

/-! ### Strings in JSON -/

/-- The character that an escape stands for, behind its backslash. -/
def readEscape : List Char → Option (Char × List Char)
  | [] => none
  | 'n' :: rest => some ('\n', rest)
  | 'r' :: rest => some ('\r', rest)
  | 't' :: rest => some ('\t', rest)
  | 'b' :: rest => some ('\x08', rest)
  | 'f' :: rest => some ('\x0c', rest)
  | 'u' :: '0' :: '0' :: high :: low :: rest =>
    let digit := fun (c : Char) => if c.toNat < 0x3a then c.toNat - 0x30 else c.toNat - 0x57
    some (Char.ofNat (16 * digit high + digit low), rest)
  | c :: rest => some (c, rest)

/-- The character that a JSON string begins with. -/
def readChar : List Char → Option (Char × List Char)
  | [] => none
  | '\\' :: rest => readEscape rest
  | c :: rest => some (c, rest)

/-- A character is read back from a JSON string. -/
theorem readChar_jsonChar (c : Char) (rest : List Char) :
    readChar (jsonChar c ++ rest) = some (c, rest) := by
  have hcontrol : ∀ n < 0x20,
      readChar (jsonChar (Char.ofNat n) ++ rest) = some (Char.ofNat n, rest) := by
    intro n hn
    interval_cases n <;> rfl
  by_cases hc : c.toNat < 0x20
  · have hread := hcontrol c.toNat hc
    rwa [Char.ofNat_toNat] at hread
  · have hother : jsonChar c = if c = '"' then ['\\', '"'] else if c = '\\' then ['\\', '\\']
        else [c] := by
      have hne : ∀ n < 0x20, c ≠ Char.ofNat n := by
        rintro n hn rfl
        interval_cases n <;> exact hc (by decide)
      have hfeed : c ≠ '\n' := hne 10 (by decide)
      have hreturn : c ≠ '\r' := hne 13 (by decide)
      have htab : c ≠ '\t' := hne 9 (by decide)
      have hback : c ≠ '\x08' := hne 8 (by decide)
      have hpage : c ≠ '\x0c' := hne 12 (by decide)
      simp only [jsonChar, if_neg hfeed, if_neg hreturn, if_neg htab, if_neg hback, if_neg hpage,
        if_neg hc]
    rw [hother]
    split_ifs with hquote hslash
    · rw [hquote]
      rfl
    · rw [hslash]
      rfl
    · rw [List.singleton_append, readChar]
      exact hslash

/-- No character is written with a quote in front. -/
theorem jsonChar_ne_quote_cons (c : Char) (rest others : List Char) :
    jsonChar c ++ rest ≠ '"' :: others := by
  intro h
  have hread := readChar_jsonChar c rest
  rw [h] at hread
  have hquote : c = '"' := by
    rw [readChar] at hread
    · exact (Prod.mk.inj (Option.some.inj hread)).1.symm
    · decide
  rw [hquote] at h
  cases h

/-- The characters of a JSON string are told from what comes behind its quote. -/
theorem escaped_append_inj {text other s t : List Char}
    (h : text.flatMap jsonChar ++ '"' :: s = other.flatMap jsonChar ++ '"' :: t) :
    text = other ∧ s = t := by
  induction text generalizing other with
  | nil =>
    cases other with
    | nil => exact ⟨rfl, (List.cons.inj h).2⟩
    | cons c rest =>
      rw [List.flatMap_cons, List.append_assoc] at h
      exact (jsonChar_ne_quote_cons c _ s h.symm).elim
  | cons c text ih =>
    cases other with
    | nil =>
      rw [List.flatMap_cons, List.append_assoc] at h
      exact (jsonChar_ne_quote_cons c _ t h).elim
    | cons d rest =>
      rw [List.flatMap_cons, List.flatMap_cons, List.append_assoc, List.append_assoc] at h
      have hread := congrArg readChar h
      rw [readChar_jsonChar, readChar_jsonChar] at hread
      obtain ⟨rfl, hrest⟩ := Prod.mk.inj (Option.some.inj hread)
      obtain ⟨rfl, hend⟩ := ih hrest
      exact ⟨rfl, hend⟩

/-- A JSON string is told from what comes behind it. -/
theorem jsonString_append_inj {text other : String} {s t : List Char}
    (h : (jsonString text).toList ++ s = (jsonString other).toList ++ t) :
    text = other ∧ s = t := by
  simp only [jsonString, String.toList_ofList, List.cons_append, List.append_assoc,
    List.nil_append] at h
  obtain ⟨htext, hend⟩ := escaped_append_inj (List.cons.inj h).2
  exact ⟨String.toList_inj.mp htext, hend⟩

/-! ### Values in JSON -/

namespace Json

/-- The kinds of values that differ in how their texts begin. -/
inductive Kind where
  | null
  | text
  | noItems
  | items
  | noMembers
  | members

/-- The kind of a value. -/
def kind : Json → Kind
  | null => .null
  | text _ => .text
  | list [] => .noItems
  | list (_ :: _) => .items
  | object [] => .noMembers
  | object (_ :: _) => .members

/-- The kind of the value that a text begins with. -/
def kindOf : List Char → Kind
  | '"' :: _ => .text
  | '[' :: ']' :: _ => .noItems
  | '[' :: _ => .items
  | '\x7b' :: '\x7d' :: _ => .noMembers
  | '\x7b' :: _ => .members
  | _ => .null

/-- The beginning of the text of a value tells its kind. -/
theorem kindOf_pretty (level : Nat) (value : Json) (rest : List Char) :
    kindOf ((value.pretty level).toList ++ rest) = value.kind := by
  rcases value with _ | text | (_ | ⟨item, items⟩) | (_ | ⟨⟨key, value⟩, members⟩)
  · rw [pretty]
    rfl
  · simp only [pretty, jsonString, String.toList_ofList, List.cons_append, kindOf, kind]
  · rw [pretty]
    rfl
  · simp only [pretty, String.toList_append, List.append_assoc]
    rfl
  · rw [pretty]
    rfl
  · simp only [pretty, String.toList_append, List.append_assoc]
    rfl

/-- Texts of values that go on in different ways are of values of one kind. -/
theorem kind_eq {level : Nat} {value other : Json} {s t : List Char}
    (h : (value.pretty level).toList ++ s = (other.pretty level).toList ++ t) :
    value.kind = other.kind := by
  rw [← kindOf_pretty level value s, h, kindOf_pretty]

mutual

/-- A value is told from what comes behind it. -/
theorem pretty_append_inj (level : Nat) : ∀ (value other : Json) {s t : List Char},
    (value.pretty level).toList ++ s = (other.pretty level).toList ++ t → value = other ∧ s = t
  | null => by
    intro other s t h
    have hkind := kind_eq h
    rcases other with _ | text | (_ | ⟨item, rest⟩) | (_ | ⟨⟨key, value⟩, rest⟩) <;> cases hkind
    exact ⟨rfl, List.append_cancel_left h⟩
  | text value => by
    intro other s t h
    have hkind := kind_eq h
    rcases other with _ | text | (_ | ⟨item, rest⟩) | (_ | ⟨⟨key, value⟩, rest⟩) <;> cases hkind
    rw [pretty, pretty] at h
    obtain ⟨rfl, hend⟩ := jsonString_append_inj h
    exact ⟨rfl, hend⟩
  | list [] => by
    intro other s t h
    have hkind := kind_eq h
    rcases other with _ | text | (_ | ⟨item, rest⟩) | (_ | ⟨⟨key, value⟩, rest⟩) <;> cases hkind
    exact ⟨rfl, List.append_cancel_left h⟩
  | list (item :: rest) => by
    intro other s t h
    have hkind := kind_eq h
    rcases other with _ | text | (_ | ⟨item', rest'⟩) | (_ | ⟨⟨key, value⟩, rest'⟩) <;> cases hkind
    simp only [pretty, String.toList_append, List.append_assoc, List.append_cancel_left_eq] at h
    obtain ⟨rfl, hitems⟩ := pretty_append_inj (level + 1) item item' h
    obtain ⟨rfl, hend⟩ := prettyItems_append_inj (level + 1) rest rest' hitems
    exact ⟨rfl, List.append_cancel_left (List.append_cancel_left hend)⟩
  | object [] => by
    intro other s t h
    have hkind := kind_eq h
    rcases other with _ | text | (_ | ⟨item, rest⟩) | (_ | ⟨⟨key, value⟩, rest⟩) <;> cases hkind
    exact ⟨rfl, List.append_cancel_left h⟩
  | object ((key, value) :: rest) => by
    intro other s t h
    have hkind := kind_eq h
    rcases other with _ | text | (_ | ⟨item, rest'⟩) | (_ | ⟨⟨key', value'⟩, rest'⟩) <;> cases hkind
    simp only [pretty, String.toList_append, List.append_assoc, List.append_cancel_left_eq] at h
    obtain ⟨rfl, hvalue⟩ := jsonString_append_inj h
    rw [List.append_cancel_left_eq] at hvalue
    obtain ⟨rfl, hmembers⟩ := pretty_append_inj (level + 1) value value' hvalue
    obtain ⟨rfl, hend⟩ := prettyMembers_append_inj (level + 1) rest rest' hmembers
    exact ⟨rfl, List.append_cancel_left (List.append_cancel_left hend)⟩
termination_by structural value => value

/-- The further items of a list are told from what comes behind them on the next line. -/
theorem prettyItems_append_inj (level : Nat) : ∀ (items others : List Json) {s t : List Char},
    (prettyItems level items).toList ++ ("\n".toList ++ s) =
      (prettyItems level others).toList ++ ("\n".toList ++ t) → items = others ∧ s = t
  | [] => by
    intro others s t h
    cases others with
    | nil => exact ⟨rfl, List.append_cancel_left (List.append_cancel_left h)⟩
    | cons => simp [prettyItems] at h
  | item :: items => by
    intro others s t h
    cases others with
    | nil => simp [prettyItems] at h
    | cons other others =>
      simp only [prettyItems, String.toList_append, List.append_assoc,
        List.append_cancel_left_eq] at h
      obtain ⟨rfl, hrest⟩ := pretty_append_inj level item other h
      obtain ⟨rfl, hend⟩ := prettyItems_append_inj level items others hrest
      exact ⟨rfl, hend⟩
termination_by structural items => items

/-- The further members of an object are told from what comes behind them on the next line. -/
theorem prettyMembers_append_inj (level : Nat) :
    ∀ (members others : List (String × Json)) {s t : List Char},
      (prettyMembers level members).toList ++ ("\n".toList ++ s) =
        (prettyMembers level others).toList ++ ("\n".toList ++ t) → members = others ∧ s = t
  | [] => by
    intro others s t h
    cases others with
    | nil => exact ⟨rfl, List.append_cancel_left (List.append_cancel_left h)⟩
    | cons other others =>
      obtain ⟨key, value⟩ := other
      simp [prettyMembers] at h
  | (key, value) :: members => by
    intro others s t h
    cases others with
    | nil => simp [prettyMembers] at h
    | cons other others =>
      obtain ⟨key', value'⟩ := other
      simp only [prettyMembers, String.toList_append, List.append_assoc,
        List.append_cancel_left_eq] at h
      obtain ⟨rfl, hvalue⟩ := jsonString_append_inj h
      rw [List.append_cancel_left_eq] at hvalue
      obtain ⟨rfl, hrest⟩ := pretty_append_inj level value value' hvalue
      obtain ⟨rfl, hend⟩ := prettyMembers_append_inj level members others hrest
      exact ⟨rfl, hend⟩
termination_by structural members => members

end

/-- Values with one text are the same. -/
theorem pretty_injective (level : Nat) : Function.Injective (pretty level) := by
  intro value other h
  exact (pretty_append_inj level value other (s := []) (t := []) (by rw [h])).1

/-- A type is told by its value. -/
theorem ofType_injective : Function.Injective ofType := by
  rintro ⟨package, simple⟩ ⟨package', simple'⟩ h
  simpa [ofType] using h

/-- An assignment is told by its value. -/
theorem ofAssignment_injective : Function.Injective ofAssignment := by
  rintro ⟨field, singleton, accessor⟩ ⟨field', singleton', accessor'⟩ h
  simp only [ofAssignment, object.injEq, List.cons.injEq, Prod.mk.injEq, text.injEq, true_and,
    and_true] at h
  obtain ⟨rfl, hsingleton, haccessor⟩ := h
  obtain rfl := ofType_injective hsingleton
  obtain rfl : accessor = accessor' := by
    cases accessor <;> cases accessor' <;> simp_all
  rfl

/-- An injector is told by its value. -/
theorem ofInjector_injective : Function.Injective ofInjector := by
  rintro ⟨name, package, parameter, component, assignments⟩ ⟨name', package', parameter',
    component', assignments'⟩ h
  simp only [ofInjector, object.injEq, List.cons.injEq, Prod.mk.injEq, text.injEq, list.injEq,
    true_and, and_true] at h
  obtain ⟨rfl, rfl, hparameter, hcomponent, hassignments⟩ := h
  obtain rfl := ofType_injective hparameter
  obtain rfl := ofType_injective hcomponent
  obtain rfl := ofAssignment_injective.list_map hassignments
  rfl

/-- A plan is told by its value. -/
theorem ofPlan_injective : Function.Injective ofPlan := by
  intro plan other h
  simp only [ofPlan, object.injEq, List.cons.injEq, Prod.mk.injEq, list.injEq, true_and,
    and_true] at h
  exact ofInjector_injective.list_map h

end Json

/-- As JSON `check` shows different plans differently. -/
theorem planText_json_injective : Function.Injective (planText true) := by
  intro plan other h
  have htext : (Json.ofPlan plan).pretty 0 = (Json.ofPlan other).pretty 0 := by
    simpa [planText, linesText, String.join_cons] using h
  exact Json.ofPlan_injective (Json.pretty_injective 0 htext)

/-! ### Summaries -/

/-- The lines of an injector in a summary. -/
def summaryLines (injector : Injector) : List String :=
  injector.qualified :: injector.assignments.map ("  " ++ ·.text)

/-- The last line of a summary. -/
def countLine (plan : List Injector) : String := s!"{plan.length} injector(s) resolved"

/-- The class of an injector, and what its assignments wire. -/
def outline (injector : Injector) : String × String × List (String × String × Option String) :=
  (injector.package, injector.name, injector.assignments.map Assignment.wiring)

/-- The line of an assignment, which begins with a blank. -/
def IsIndented (line : String) : Prop := line.toList.head? = some ' '

/-- The class and the assignments of an injector stand on lines of their own. -/
structure IsShowable (injector : Injector) : Prop where
  name : '.' ∉ injector.name.toList
  qualified : CompilationUnit.IsClauseName injector.qualified
  assignments : ∀ assignment ∈ injector.assignments, assignment.IsReadable

variable {tree tree' : FileTree} {settings settings' : Settings} {plan other : List Injector}

/-- The injectors of a plan can be shown. -/
theorem isShowable_of_planOf (hplan : (planOf tree settings).outcome = .ok plan) :
    ∀ injector ∈ plan, IsShowable injector := by
  intro injector hinjector
  obtain ⟨sources, files, hparsed, hgenerates⟩ := exists_sources_of_planOf hplan
  have hlegal := isLegal_of_generate hparsed hgenerates injector hinjector
  refine ⟨?_, isClauseName_qualify hlegal.package hlegal.isClauseName_name,
    isReadable_of_generate hparsed hgenerates hinjector⟩
  rw [hlegal.name.2]
  simpa using hlegal.name.1.notMem (c := '.') (by decide)

/-- The lines of an injector have no line feeds in them. -/
theorem IsShowable.newline_notMem {injector : Injector} (h : IsShowable injector) :
    ∀ line ∈ summaryLines injector, '\n' ∉ line.toList := by
  rw [summaryLines, List.forall_mem_cons, List.forall_mem_map]
  refine ⟨h.qualified.noLineEnd, fun assignment hassignment => ?_⟩
  simpa using (h.assignments assignment hassignment).newline_notMem

/-- Only the lines of assignments are indented. -/
theorem IsShowable.not_isIndented {injector : Injector} (h : IsShowable injector) :
    ¬ IsIndented injector.qualified :=
  fun hblank => h.qualified.noBlank (List.mem_of_mem_head? hblank)

/-- A number has no line feed in it. -/
theorem newline_notMem_toString (n : Nat) : '\n' ∉ (toString n).toList := by
  intro hfeed
  have hdigits : '\n' ∈ Nat.toDigits 10 n := by simpa using hfeed
  exact Bool.false_ne_true (Nat.isDigit_of_mem_toDigits (by decide) (by decide) hdigits)

/-- The lines of a summary are those of its injectors, and their number. -/
theorem splitAt_summary (h : ∀ injector ∈ plan, IsShowable injector) :
    splitAt '\n' (summary plan) = plan.flatMap summaryLines ++ [countLine plan, ""] := by
  have hlines : ∀ line ∈ plan.flatMap summaryLines ++ [countLine plan], '\n' ∉ line.toList := by
    rw [List.forall_mem_append, List.forall_mem_flatMap, List.forall_mem_singleton]
    refine ⟨fun injector hinjector => (h injector hinjector).newline_notMem, ?_⟩
    simp only [countLine, String.toList_append, List.mem_append, not_or]
    exact ⟨newline_notMem_toString _, by decide⟩
  have hsplit := CompilationUnit.splitAt_join hlines ""
  rw [String.append_empty, List.append_assoc] at hsplit
  exact hsplit

/-- Lists that end their runs of elements of a kind at the same place have the same runs. -/
theorem eq_of_append_eq {α : Type} {P : α → Prop} {run others rest rest' : List α}
    (h : run ++ rest = others ++ rest') (hrun : ∀ a ∈ run, P a) (hothers : ∀ a ∈ others, P a)
    (hrest : ∀ a ∈ rest.head?, ¬ P a) (hrest' : ∀ a ∈ rest'.head?, ¬ P a) :
    run = others ∧ rest = rest' := by
  induction run generalizing others with
  | nil =>
    cases others with
    | nil => exact ⟨rfl, h⟩
    | cons b others =>
      have hhead : b ∈ rest.head? := by
        rw [List.nil_append] at h
        simp [h]
      exact (hrest b hhead (hothers b List.mem_cons_self)).elim
  | cons a run ih =>
    cases others with
    | nil =>
      have hhead : a ∈ rest'.head? := by
        rw [List.nil_append] at h
        simp [← h]
      exact (hrest' a hhead (hrun a List.mem_cons_self)).elim
    | cons b others =>
      obtain ⟨rfl, htail⟩ := List.cons.inj h
      obtain ⟨rfl, hend⟩ := ih htail (List.forall_mem_cons.mp hrun).2
        (List.forall_mem_cons.mp hothers).2
      exact ⟨rfl, hend⟩

/-- The lines of injectors do not begin with the line of an assignment. -/
theorem not_isIndented_head (h : ∀ injector ∈ plan, IsShowable injector) :
    ∀ line ∈ (plan.flatMap summaryLines).head?, ¬ IsIndented line := by
  cases plan with
  | nil => simp
  | cons injector plan =>
    rintro line ⟨⟩
    exact (h injector List.mem_cons_self).not_isIndented

/-- The lines of injectors tell their classes, and what is wired. -/
theorem outline_eq_of_lines_eq (h : ∀ injector ∈ plan, IsShowable injector)
    (h' : ∀ injector ∈ other, IsShowable injector)
    (hlines : plan.flatMap summaryLines = other.flatMap summaryLines) :
    plan.map outline = other.map outline := by
  have hindented : ∀ injector : Injector,
      ∀ line ∈ injector.assignments.map ("  " ++ ·.text), IsIndented line := by
    intro injector line hline
    obtain ⟨assignment, -, rfl⟩ := List.mem_map.mp hline
    simp [IsIndented]
  induction plan generalizing other with
  | nil =>
    cases other with
    | nil => rfl
    | cons injector other => cases hlines
  | cons injector plan ih =>
    cases other with
    | nil => cases hlines
    | cons injector' other =>
      obtain ⟨hinjector, hplan⟩ := List.forall_mem_cons.mp h
      obtain ⟨hinjector', hother⟩ := List.forall_mem_cons.mp h'
      obtain ⟨hqualified, hrest⟩ := List.cons.inj hlines
      obtain ⟨hassignments, hlater⟩ := eq_of_append_eq hrest (hindented injector)
        (hindented injector') (not_isIndented_head hplan) (not_isIndented_head hother)
      obtain ⟨hpackage, hname⟩ := (qualify_inj hinjector.name hinjector'.name).mp hqualified
      have hwirings : injector.assignments.map Assignment.wiring =
          injector'.assignments.map Assignment.wiring := by
        refine map_eq_of_map_eq hassignments fun a ha b hb htext => ?_
        exact (hinjector.assignments a ha).wiring_eq (hinjector'.assignments b hb)
          ((String.append_right_inj _).mp htext)
      rw [List.map_cons, List.map_cons, ih hplan hother hlater, outline, outline, hpackage, hname,
        hwirings]

/-- The summaries of plans tell their classes, and what is wired. -/
theorem outline_eq_of_summary_eq (h : ∀ injector ∈ plan, IsShowable injector)
    (h' : ∀ injector ∈ other, IsShowable injector) (hsummary : summary plan = summary other) :
    plan.map outline = other.map outline := by
  have hsplit := congrArg (splitAt '\n') hsummary
  rw [splitAt_summary h, splitAt_summary h'] at hsplit
  exact outline_eq_of_lines_eq h h' (List.append_inj' hsplit rfl).1

/-! ### What `check` tells -/

variable {surroundings surroundings' : Settings.Surroundings}
  {input extension input' extension' : Option String} {json : Bool} {text : String}

/-- A text that `check` shows is that of the plan it has made. -/
theorem exists_plan_of_check
    (h : (check tree surroundings input extension json).outcome = .ok text) :
    ∃ settings plan, Settings.load tree surroundings = .ok settings ∧
      (planOf tree (overrideInput settings input extension)).outcome = .ok plan ∧
      planText json plan = text := by
  rcases fail_or_plan tree surroundings input extension none json with
    ⟨failure, events, -, hcheck, -⟩ | ⟨settings, plan, events, hload, hplan, hcheck⟩
  · rw [hcheck] at h
    cases h
  · exact ⟨settings, plan, hload, by rw [hplan], Except.ok.inj (hcheck.symm.trans h)⟩

/-- Where `check` shows the same, wherever it is run, it has made plans with the same classes and
the same wiring. In JSON it shows the same for the same plan only. -/
theorem check_tells_plan
    (h : (check tree surroundings input extension json).outcome = .ok text)
    (h' : (check tree' surroundings' input' extension' json).outcome = .ok text) :
    ∃ settings settings' plan plan', Settings.load tree surroundings = .ok settings ∧
      (planOf tree (overrideInput settings input extension)).outcome = .ok plan ∧
      Settings.load tree' surroundings' = .ok settings' ∧
      (planOf tree' (overrideInput settings' input' extension')).outcome = .ok plan' ∧
      plan.map outline = plan'.map outline ∧ (json = true → plan = plan') := by
  obtain ⟨settings, plan, hload, hplan, htext⟩ := exists_plan_of_check h
  obtain ⟨settings', plan', hload', hplan', htext'⟩ := exists_plan_of_check h'
  have hsame : planText json plan = planText json plan' := htext.trans htext'.symm
  refine ⟨settings, settings', plan, plan', hload, hplan, hload', hplan', ?_, ?_⟩
  · cases json with
    | true => rw [planText_json_injective hsame]
    | false =>
      exact outline_eq_of_summary_eq (isShowable_of_planOf hplan) (isShowable_of_planOf hplan')
        hsame
  · rintro rfl
    exact planText_json_injective hsame

end PreferenceInjector.Command
