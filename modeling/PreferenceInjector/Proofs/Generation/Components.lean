import PreferenceInjector.Proofs.Declaration.Conversion
import PreferenceInjector.Proofs.Generation.Wiring

/-!
# Building components

A component is built from any texts, whether or not they come from a declaration file. The names of
its wrappers are added one after the other, and a name that is there already is not added again; so
the list that is kept is a set in the order of first occurrences. Since a wrong name is looked for
in the list that is kept, the first one found there has to be the first one of the given list. A
component is built from its own list as it is.
-/

namespace PreferenceInjector

open Declaration

/-- The name is the stem of wrapper names with something behind it. -/
def NamesWrapper (name : String) : Prop := ∃ model, name = "Preference_" ++ model ∧ model ≠ ""

/-- The kept names with one name more, unless it is there. -/
def addName (kept : List String) (name : String) : List String :=
  if name ∈ kept then kept else kept ++ [name]

/-- The component has the given names, and its wrappers are the names of the list, each once and in
the order of first occurrences. -/
structure Component.IsBuiltFrom (component : Component) (package className : String)
    (names : List String) : Prop where
  package : component.package = package
  className : component.className = className
  added : component.wrappers = names.foldl addName []
  nodup : component.wrappers.Nodup
  owns : ∀ name, component.owns name = true ↔ name ∈ names
  inOrder : ∀ first ∈ names, ∀ second ∈ names,
    (component.wrappers.idxOf first < component.wrappers.idxOf second ↔
      names.idxOf first < names.idxOf second)
  again : Component.declare component.package component.className component.wrappers =
    pure component

/-! ### First occurrences -/

/-- Adding names one after the other keeps their first occurrences. -/
theorem foldl_addName (names : List String) : names.foldl addName [] = firstSeen names := by
  induction names using List.reverseRecOn with
  | nil => rfl
  | append_singleton names name ih =>
    rw [List.foldl_append, ih, List.foldl_cons, List.foldl_nil, addName,
      firstSeen_eq_eraseDups (names ++ [name]), List.eraseDups_append, ← firstSeen_eq_eraseDups]
    by_cases hname : name ∈ names
    · simp [mem_firstSeen, hname, List.removeAll]
    · simp [mem_firstSeen, hname, List.removeAll, List.eraseDups_cons]

/-- The list starts with its first name. -/
theorem head?_firstSeen (names : List String) : (firstSeen names).head? = names.head? := by
  cases names <;> rfl

/-- The first name of a kind is the first one of that kind among first occurrences. -/
theorem find?_firstSeen (p : String → Bool) (names : List String) :
    (firstSeen names).find? p = names.find? p := by
  rw [← List.head?_filter, ← firstSeen_filter, head?_firstSeen, List.head?_filter]

/-- Names that are all different stay as they are. -/
theorem firstSeen_of_nodup {names : List String} (h : names.Nodup) : firstSeen names = names := by
  induction names with
  | nil => rfl
  | cons name names ih =>
    obtain ⟨hname, hnames⟩ := List.nodup_cons.mp h
    rw [firstSeen, ih hnames, List.filter_eq_self.mpr]
    intro other hother
    rw [bne_iff_ne]
    rintro rfl
    exact hname hother

/-- Names that a filter keeps are in the same order as before. -/
theorem idxOf_filter_lt_iff {p : String → Bool} {names : List String} {first second : String}
    (hfirst : p first = true) (hsecond : p second = true) :
    (names.filter p).idxOf first < (names.filter p).idxOf second ↔
      names.idxOf first < names.idxOf second := by
  induction names with
  | nil => simp
  | cons name names ih =>
    by_cases hname : p name = true
    · rw [List.filter_cons_of_pos hname]
      simp only [List.idxOf_cons, cond_eq_ite]
      split_ifs <;> simp [ih]
    · have hne : ∀ other, p other = true → (name == other) = false := by
        intro other hother
        rw [beq_eq_false_iff_ne]
        rintro rfl
        exact hname hother
      rw [List.filter_cons_of_neg hname, List.idxOf_cons, List.idxOf_cons, hne first hfirst,
        hne second hsecond, ih]
      simp

/-- Names are in the order of their first occurrences. -/
theorem idxOf_firstSeen_lt_iff (names : List String) (first second : String) :
    (firstSeen names).idxOf first < (firstSeen names).idxOf second ↔
      names.idxOf first < names.idxOf second := by
  induction names with
  | nil => simp [firstSeen]
  | cons name names ih =>
    rw [firstSeen]
    by_cases hsecond : second = name
    · simp [hsecond]
    by_cases hfirst : first = name
    · subst hfirst
      simp [List.idxOf_cons, beq_eq_false_iff_ne.mpr (Ne.symm hsecond)]
    · have hfilter : ((firstSeen names).filter (· != name)).idxOf first <
            ((firstSeen names).filter (· != name)).idxOf second ↔
          (firstSeen names).idxOf first < (firstSeen names).idxOf second :=
        idxOf_filter_lt_iff (bne_iff_ne.mpr hfirst) (bne_iff_ne.mpr hsecond)
      simp only [List.idxOf_cons, beq_eq_false_iff_ne.mpr (Ne.symm hfirst),
        beq_eq_false_iff_ne.mpr (Ne.symm hsecond), cond_false, Nat.add_lt_add_iff_right]
      rw [hfilter, ih]

/-! ### Building -/

variable {package className : String} {names : List String} {component : Component}

/-- A name has the form of a wrapper name when it names one. -/
theorem isWrapperName_iff {name : String} : isWrapperName name = true ↔ NamesWrapper name := by
  rw [isWrapperName, Option.isSome_iff_exists, NamesWrapper]
  simp only [wrapperAccessor_eq_some_iff]

/-- A text is visible when not all of it is white space. -/
theorem isVisible_iff {text : String} :
    isVisible text = true ↔ ∃ c ∈ text.toList, isWhiteSpace c = false := by
  simp [isVisible]

/-- A component can be built under a visible name, with wrappers only. -/
theorem exists_declare_iff :
    (∃ component, (Component.declare package className names).outcome = .ok component) ↔
      isVisible className = true ∧ ∀ name ∈ names, isWrapperName name = true := by
  constructor
  · intro h
    obtain ⟨component, hcomponent⟩ := h
    obtain ⟨-, rfl, hwrappers⟩ := declare_eq_ok hcomponent
    refine ⟨component.visible, ?_⟩
    intro name hname
    exact component.wrapperNames name (by rwa [hwrappers, mem_firstSeen])
  · intro h
    exact exists_declare package h.1 h.2

/-- What cannot be seen is no class name, whatever the wrappers are. -/
theorem declare_of_not_isVisible (package : String) (names : List String)
    (h : ¬ isVisible className = true) : Component.declare package className names =
      Reported.malformed (Flaw.unnamed package).text := by
  rw [Component.declare, Component.build, dif_neg h]

/-- The first name of the given list that is not that of a wrapper is reported. -/
theorem declare_of_find? (package : String) {name : String} (h : isVisible className = true)
    (hname : names.find? (! isWrapperName ·) = some name) :
    Component.declare package className names =
      Reported.malformed (Flaw.foreignWrapper className name).text := by
  have hbuild : Component.build package className names =
      .error (.foreignWrapper className name) := by
    rw [← find?_firstSeen] at hname
    rw [Component.build, dif_pos h]
    split
    · next found hfound =>
      rw [hname] at hfound
      cases hfound
      rfl
    · next hnone =>
      rw [hname] at hnone
      cases hnone
  rw [Component.declare, hbuild]

/-- A component is built again from what it holds. -/
theorem Component.declare_self (component : Component) :
    Component.declare component.package component.className component.wrappers =
      pure component := by
  obtain ⟨again, hagain⟩ := exists_declare component.package component.visible
    component.wrapperNames
  obtain ⟨hpackage, hclass, hwrappers⟩ := declare_eq_ok hagain
  rw [firstSeen_of_nodup component.nodup] at hwrappers
  have hsame : again = component := by
    cases again
    cases component
    cases hpackage
    cases hclass
    cases hwrappers
    rfl
  rw [Component.declare, outcome_declare_eq_ok.mp hagain, hsame]

/-- A component that is built from names has them as its wrappers. -/
theorem isBuiltFrom_of_declare
    (h : (Component.declare package className names).outcome = .ok component) :
    component.IsBuiltFrom package className names := by
  obtain ⟨hpackage, hclass, hwrappers⟩ := declare_eq_ok h
  refine ⟨hpackage, hclass, ?_, component.nodup, ?_, ?_, component.declare_self⟩
  · rw [hwrappers, foldl_addName]
  · intro name
    rw [Component.owns, List.contains_iff_mem, hwrappers, mem_firstSeen]
  · intro first _ second _
    rw [hwrappers]
    exact idxOf_firstSeen_lt_iff names first second

/-- A component is built exactly from a class name that can be seen and names of wrappers, and has
these as a set in the order of first occurrences. Otherwise it is reported that there is no class
name, or else the first of the names that names no wrapper. -/
theorem Component.declare_spec (package className : String) (names : List String) :
    ((∃ component, (Component.declare package className names).outcome = .ok component) ↔
      (∃ c ∈ className.toList, isWhiteSpace c = false) ∧ ∀ name ∈ names, NamesWrapper name) ∧
    (∀ component, (Component.declare package className names).outcome = .ok component →
      component.IsBuiltFrom package className names) ∧
    ((∀ c ∈ className.toList, isWhiteSpace c = true) →
      Component.declare package className names =
        Reported.malformed s!"component in package '{package}' has no class name") ∧
    (∀ before name after, names = before ++ name :: after →
      (∃ c ∈ className.toList, isWhiteSpace c = false) →
      (∀ earlier ∈ before, NamesWrapper earlier) → ¬ NamesWrapper name →
        Component.declare package className names = Reported.malformed
          s!"component {className} lists '{name}', which is not a Preference_<Model> wrapper") := by
  refine ⟨?_, fun _ => isBuiltFrom_of_declare, ?_, ?_⟩
  · rw [exists_declare_iff, isVisible_iff]
    simp only [isWrapperName_iff]
  · intro hblank
    apply declare_of_not_isVisible
    rw [isVisible_iff]
    simpa using hblank
  · intro before name after hsplit hvisible hbefore hname
    apply declare_of_find? package (isVisible_iff.mpr hvisible)
    rw [List.find?_eq_some_iff_append]
    simp only [Bool.not_eq_true', ← Bool.not_eq_true, isWrapperName_iff]
    exact ⟨hname, before, after, hsplit, by simpa using hbefore⟩

end PreferenceInjector
