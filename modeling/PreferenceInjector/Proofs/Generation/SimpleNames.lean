import PreferenceInjector.Proofs.Declaration.Conversion
import PreferenceInjector.Proofs.Generation.Wiring
import PreferenceInjector.Proofs.QualifiedNames

/-!
# Resolution by simple names

What a declared type denotes for a component that is built from the texts of its declaration. Only
what follows the last dot counts: an owned wrapper is fetched through its accessor, and the name of
the singleton stands for the component. No text is both, because a wrapper's name goes on with a
low line where the name of a singleton goes on with a letter, so the two checks can be made in
either order. Nothing is assumed of the texts; a wrapper whose own name holds a dot is kept, but no
type denotes it.
-/

namespace PreferenceInjector

open Declaration

/-- The name is what follows the last dot of the type, or the whole type if there is no dot. -/
def EndsInName (type name : String) : Prop :=
  '.' ∉ name.toList ∧ (type = name ∨ ∃ package, type = package ++ "." ++ name)

/-- What a declared type denotes when the singleton is looked for before the wrappers. -/
def Component.resolveSingletonFirst? (component : Component) (type : String) : Option Resolution :=
  if simpleName type = component.singletonName then some .component
  else if component.owns (simpleName type) then
    (wrapperAccessor (simpleName type)).map .wrapper
  else none

/-- Types denote the wrappers of the list and the singleton of the class, by their simple names
and nothing else. -/
structure Component.ResolvesByName (component : Component) (className : String)
    (names : List String) : Prop where
  wrapper : ∀ type name accessor, EndsInName type name →
    (component.resolve? type = some (.wrapper accessor) ↔
      name = "Preference_" ++ accessor ∧ name ∈ names)
  singleton : ∀ type name, EndsInName type name →
    (component.resolve? type = some .component ↔ name = "PreferenceComponent_" ++ className)
  apart : ∀ name accessor, name = "Preference_" ++ accessor → name ∈ names →
    name ≠ "PreferenceComponent_" ++ className
  anyOrder : ∀ type, component.resolveSingletonFirst? type = component.resolve? type
  owned : ∀ type name, EndsInName type name → name ∈ names → component.resolve? type ≠ none
  nonempty : ∀ type accessor, component.resolve? type = some (.wrapper accessor) → accessor ≠ ""
  injective : ∀ type other accessor, component.resolve? type = some (.wrapper accessor) →
    component.resolve? other = some (.wrapper accessor) →
      ∀ name, EndsInName type name ↔ EndsInName other name
  qualified : ∀ package type, component.resolve? (package ++ "." ++ type) = component.resolve? type

/-! ### Simple names -/

/-- A type ends in its simple name and in no other one. -/
theorem endsInName_iff {type name : String} : EndsInName type name ↔ simpleName type = name := by
  rw [← splitQualified_snd]
  constructor
  · rintro ⟨hdot, rfl | ⟨package, rfl⟩⟩
    · rw [splitQualified_of_notMem hdot]
    · rw [splitQualified_append package hdot]
  · rintro rfl
    refine ⟨dot_notMem_splitQualified_snd type, ?_⟩
    by_cases hdot : '.' ∈ type.toList
    · obtain ⟨package, simple, rfl, hsimple⟩ := exists_eq_append_dot hdot
      rw [splitQualified_append package hsimple]
      exact .inr ⟨package, rfl⟩
    · rw [splitQualified_of_notMem hdot]
      exact .inl rfl

/-- A package in front of a type leaves its simple name as it is. -/
theorem simpleName_qualified (package type : String) :
    simpleName (package ++ "." ++ type) = simpleName type := by
  obtain ⟨hdot, htype⟩ := endsInName_iff.mpr (rfl : simpleName type = simpleName type)
  rw [← endsInName_iff]
  refine ⟨hdot, Or.inr ?_⟩
  rcases htype with htype | ⟨inner, htype⟩
  · exact ⟨package, congrArg (package ++ "." ++ ·) htype⟩
  · refine ⟨package ++ "." ++ inner, ?_⟩
    calc
      package ++ "." ++ type = package ++ "." ++ (inner ++ "." ++ simpleName type) :=
        congrArg (package ++ "." ++ ·) htype
      _ = package ++ "." ++ inner ++ "." ++ simpleName type := by simp only [String.append_assoc]

/-! ### Resolution -/

variable {component : Component} {type : String}

/-- A type denotes something exactly when its simple name is that of an owned wrapper or of the
singleton. -/
theorem Component.exists_resolve?_iff :
    (∃ resolution, component.resolve? type = some resolution) ↔
      simpleName type ∈ component.wrappers ∨
        simpleName type = "PreferenceComponent_" ++ component.className := by
  constructor
  · intro h
    obtain ⟨resolution, hresolution⟩ := h
    rw [Component.resolve?_eq_some_iff] at hresolution
    cases resolution with
    | wrapper model => exact Or.inl hresolution.1
    | component => exact Or.inr hresolution
  · rintro (howned | hsingleton)
    · obtain ⟨model, hmodel, -⟩ := Component.exists_model howned
      exact ⟨.wrapper model, Component.resolve?_eq_some_iff.mpr ⟨howned, hmodel⟩⟩
    · exact ⟨.component, Component.resolve?_eq_some_iff.mpr hsingleton⟩

/-- The order in which wrappers and singleton are looked for has no influence. -/
theorem Component.resolveSingletonFirst?_eq (component : Component) (type : String) :
    component.resolveSingletonFirst? type = component.resolve? type := by
  rw [Component.resolveSingletonFirst?]
  by_cases hsingleton : simpleName type = component.singletonName
  · rw [if_pos hsingleton]
    exact (Component.resolve?_eq_some_iff.mpr hsingleton).symm
  · rw [if_neg hsingleton, Component.resolve?, if_neg hsingleton]

/-- A type that denotes a wrapper has its name as simple name, and the model is not empty. -/
theorem Component.simpleName_of_wrapper {accessor : String}
    (h : component.resolve? type = some (.wrapper accessor)) :
    simpleName type = "Preference_" ++ accessor ∧ accessor ≠ "" := by
  obtain ⟨howned, hname⟩ := Component.resolve?_eq_some_iff.mp h
  obtain ⟨model, hstem, hne⟩ := Component.exists_model howned
  cases (String.append_right_inj _).mp (hname.symm.trans hstem)
  exact ⟨hname, hne⟩

/-- Every type has one simple name, and for a component that can be built it denotes the wrapper
or the singleton that this name says, and nothing if there is none. -/
theorem Component.resolvesByName_of_build {package className : String} {names : List String}
    (h : Component.build package className names = .ok component) :
    (∀ type, ∃! name, EndsInName type name) ∧ component.ResolvesByName className names := by
  obtain ⟨-, hclass, hwrappers⟩ := declare_eq_ok (outcome_declare_eq_ok.mpr h)
  have howned : ∀ name, name ∈ component.wrappers ↔ name ∈ names := by
    intro name
    rw [hwrappers, mem_firstSeen]
  refine ⟨?_, ?_⟩
  · intro type
    simp only [endsInName_iff, eq_comm (a := simpleName type)]
    exact existsUnique_eq
  · subst hclass
    constructor
    case wrapper =>
      intro type name accessor hname
      rw [← endsInName_iff.mp hname, and_comm, ← howned]
      exact Component.resolve?_eq_some_iff
    case singleton =>
      intro type name hname
      rw [← endsInName_iff.mp hname]
      exact Component.resolve?_eq_some_iff
    case apart =>
      intro name accessor hname _ hsingleton
      exact singletonName_ne_wrapper _ _ (hsingleton.symm.trans hname)
    case anyOrder => exact component.resolveSingletonFirst?_eq
    case owned =>
      intro type name hname hmem
      have hmem : simpleName type ∈ component.wrappers := by
        rwa [endsInName_iff.mp hname, howned]
      obtain ⟨resolution, hresolution⟩ := Component.exists_resolve?_iff.mpr (Or.inl hmem)
      simp [hresolution]
    case nonempty =>
      intro type accessor htype
      exact (Component.simpleName_of_wrapper htype).2
    case injective =>
      intro type other accessor htype hother name
      rw [endsInName_iff, endsInName_iff, (Component.simpleName_of_wrapper htype).1,
        (Component.simpleName_of_wrapper hother).1]
    case qualified =>
      intro package type
      rw [Component.resolve?, Component.resolve?, simpleName_qualified]

/-- Two wrappers, one of them with a dot in its name, are listed for a component. -/
theorem Component.resolvesByName_of_build_dotted :
    ∃ component, Component.build "app" "Foo" ["Preference_Bar", "Preference_a.Bar"] =
        .ok component ∧
      (∀ type, ∃! name, EndsInName type name) ∧
        component.ResolvesByName "Foo" ["Preference_Bar", "Preference_a.Bar"] := by
  obtain ⟨component, hcomponent⟩ : ∃ component,
      Component.build "app" "Foo" ["Preference_Bar", "Preference_a.Bar"] = .ok component :=
    ⟨_, rfl⟩
  exact ⟨component, hcomponent, Component.resolvesByName_of_build hcomponent⟩

end PreferenceInjector
