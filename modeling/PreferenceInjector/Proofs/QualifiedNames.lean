import PreferenceInjector.Proofs.Declaration.Denotation
import PreferenceInjector.Proofs.FileTree.PathTexts
import PreferenceInjector.Registry

/-!
# Qualified names as keys

A qualified name stands for a pair of a package and a simple name. The name is cut at its last dot,
so the simple name never holds one, and a pair whose simple name holds none is found again in its
qualified name. Joining loses a pair only where the package is empty although the name has a dot:
a single dot in front of a simple name is dropped. Hence two components, two classes or two
injectors with dotless simple names share a qualified name only if they share both parts.
-/

namespace PreferenceInjector

open Declaration

/-! ### Cutting at the last dot -/

/-- A text without a dot is not cut. -/
theorem cutAtLastDot_of_notMem {text : List Char} (h : '.' ∉ text) : cutAtLastDot text = none := by
  induction text with
  | nil => rfl
  | cons c rest ih =>
    rw [List.mem_cons, not_or] at h
    rw [cutAtLastDot, ih h.2]
    exact if_neg (Ne.symm h.1)

/-- A text is cut at the dot behind which there is none. -/
theorem cutAtLastDot_append {before after : List Char} (h : '.' ∉ after) :
    cutAtLastDot (before ++ '.' :: after) = some (before, after) := by
  induction before with
  | nil =>
    rw [List.nil_append, cutAtLastDot, cutAtLastDot_of_notMem h]
    exact if_pos rfl
  | cons c before ih => rw [List.cons_append, cutAtLastDot, ih]

variable {name package simple : String}

/-- A name without a dot lies in the unnamed package. -/
theorem splitQualified_of_notMem (h : '.' ∉ name.toList) : splitQualified name = ("", name) := by
  rw [splitQualified, cutAtLastDot_of_notMem h]

/-- A name with a dot is cut at its last one. -/
theorem splitQualified_append (package : String) (h : '.' ∉ simple.toList) :
    splitQualified (package ++ "." ++ simple) = (package, simple) := by
  have htext : (package ++ "." ++ simple).toList = package.toList ++ '.' :: simple.toList := by
    simp
  rw [splitQualified, htext, cutAtLastDot_append h]
  simp

/-- A name with a dot is a package and a simple name without one. -/
theorem exists_eq_append_dot (h : '.' ∈ name.toList) :
    ∃ package simple, name = package ++ "." ++ simple ∧ '.' ∉ simple.toList := by
  obtain ⟨before, after, htext, hafter⟩ := exists_eq_append_of_mem h
  refine ⟨String.ofList before, String.ofList after, ?_, by simpa using hafter⟩
  simp [← String.toList_inj, htext]

/-- A name is cut in front of its simple name. -/
theorem splitQualified_snd (name : String) : (splitQualified name).2 = simpleName name := by
  by_cases hdot : '.' ∈ name.toList
  · obtain ⟨before, after, hname, hafter⟩ := exists_eq_append_of_mem hdot
    rw [splitQualified, hname, cutAtLastDot_append hafter, ← String.ofList_toList (s := name),
      hname, simpleName_append_dot _ hafter]
  · rw [splitQualified_of_notMem hdot]
    have hsimple := simpleName_of_dot_notMem hdot
    rw [String.ofList_toList] at hsimple
    exact hsimple.symm

/-- What follows the last dot of a name holds none. -/
theorem dot_notMem_splitQualified_snd (name : String) : '.' ∉ (splitQualified name).2.toList := by
  by_cases hdot : '.' ∈ name.toList
  · obtain ⟨package, simple, rfl, hsimple⟩ := exists_eq_append_dot hdot
    rwa [splitQualified_append package hsimple]
  · rwa [splitQualified_of_notMem hdot]

/-! ### Joining and cutting -/

/-- A class of the unnamed package keeps its bare name. -/
theorem qualify_empty (simple : String) : qualify "" simple = simple := rfl

/-- A class of a named package is written behind it and a dot. -/
theorem qualify_of_ne_empty (h : package ≠ "") (simple : String) :
    qualify package simple = package ++ "." ++ simple := by
  rw [qualify, if_neg (by simpa using h)]

/-- A pair is found again in its qualified name exactly when its simple name holds no dot. -/
theorem splitQualified_qualify_iff (package simple : String) :
    splitQualified (qualify package simple) = (package, simple) ↔ '.' ∉ simple.toList := by
  constructor
  · intro h
    have hdot := dot_notMem_splitQualified_snd (qualify package simple)
    rwa [h] at hdot
  · intro h
    by_cases hpackage : package = ""
    · rw [hpackage, qualify_empty, splitQualified_of_notMem h]
    · rw [qualify_of_ne_empty hpackage, splitQualified_append package h]

/-- A name is found again in its pair unless it is a simple name behind a single dot. -/
theorem qualify_splitQualified_iff (name : String) :
    qualify (splitQualified name).1 (splitQualified name).2 = name ↔
      ¬ ∃ simple, name = "." ++ simple ∧ '.' ∉ simple.toList := by
  by_cases hdot : '.' ∈ name.toList
  · obtain ⟨package, simple, rfl, hsimple⟩ := exists_eq_append_dot hdot
    rw [splitQualified_append package hsimple]
    by_cases hpackage : package = ""
    · subst hpackage
      have hshorter : simple ≠ "" ++ "." ++ simple := by
        intro heq
        have hlengths := congrArg String.length heq
        simp at hlengths
      rw [qualify_empty]
      exact iff_of_false hshorter (not_not_intro ⟨simple, rfl, hsimple⟩)
    · refine iff_of_true (qualify_of_ne_empty hpackage simple) ?_
      rintro ⟨other, heq, hother⟩
      -- Both sides are cut at their last dot, which leaves no package on the right.
      have hpairs := congrArg splitQualified heq
      rw [splitQualified_append package hsimple,
        show "." ++ other = "" ++ "." ++ other from rfl, splitQualified_append "" hother] at hpairs
      exact hpackage (congrArg Prod.fst hpairs)
  · rw [splitQualified_of_notMem hdot]
    refine iff_of_true (qualify_empty name) ?_
    rintro ⟨simple, rfl, -⟩
    exact hdot (by simp)

/-- Pairs with dotless simple names have the same qualified name only if they are equal. -/
theorem qualify_inj {package' simple' : String} (h : '.' ∉ simple.toList)
    (h' : '.' ∉ simple'.toList) :
    qualify package simple = qualify package' simple' ↔ package = package' ∧ simple = simple' := by
  constructor
  · intro heq
    have hpairs := congrArg splitQualified heq
    rw [(splitQualified_qualify_iff package simple).mpr h,
      (splitQualified_qualify_iff package' simple').mpr h'] at hpairs
    exact Prod.mk.inj hpairs
  · rintro ⟨rfl, rfl⟩
    rfl

/-- The type of a qualified name is the one that has it, exactly when its simple name holds no
dot. -/
theorem TypeRef.ofQualified_qualified_iff (type : TypeRef) :
    ofQualified type.qualified = type ↔ '.' ∉ type.simple.toList := by
  obtain ⟨package, simple⟩ := type
  rw [← splitQualified_qualify_iff package simple, Prod.ext_iff, ofQualified, TypeRef.mk.injEq]
  rfl

/-! ### Keys -/

/-- Qualified names and pairs of a package and a simple name correspond. The simple name of a text
is the second part of its pair and holds no dot; a text is found again in its pair unless it is a
dotless text behind a single dot, and a pair in its qualified name exactly when its simple name
holds no dot. So qualified names tell apart components, classes and injectors whose simple names
hold none. -/
theorem qualified_names_are_keys :
    (∀ name, simpleName name = (splitQualified name).2 ∧ '.' ∉ (simpleName name).toList) ∧
    (∀ name, qualify (splitQualified name).1 (splitQualified name).2 = name ↔
      ¬ ∃ simple, name = "." ++ simple ∧ '.' ∉ simple.toList) ∧
    (∀ package simple, splitQualified (qualify package simple) = (package, simple) ↔
      '.' ∉ simple.toList) ∧
    (∀ type : TypeRef, TypeRef.ofQualified type.qualified = type ↔ '.' ∉ type.simple.toList) ∧
    (∀ package package' simple simple' : String, '.' ∉ simple.toList → '.' ∉ simple'.toList →
      qualify package simple = qualify package' simple' → (package, simple) = (package', simple')) ∧
    (∀ one other : Component, '.' ∉ one.className.toList → '.' ∉ other.className.toList →
      one.qualified = other.qualified →
        one.package = other.package ∧ one.className = other.className) ∧
    (∀ one other : Consumer, '.' ∉ one.name.toList → '.' ∉ other.name.toList →
      one.qualified = other.qualified → one.type = other.type) ∧
    ∀ one other : Injector, '.' ∉ one.name.toList → '.' ∉ other.name.toList →
      one.qualified = other.qualified → one.package = other.package ∧ one.name = other.name := by
  refine ⟨?_, qualify_splitQualified_iff, splitQualified_qualify_iff,
    TypeRef.ofQualified_qualified_iff, ?_, ?_, ?_, ?_⟩
  · intro name
    rw [← splitQualified_snd]
    exact ⟨rfl, dot_notMem_splitQualified_snd name⟩
  · intro package package' simple simple' h h' heq
    obtain ⟨rfl, rfl⟩ := (qualify_inj h h').mp heq
    rfl
  · intro one other h h' heq
    exact (qualify_inj h h').mp heq
  · intro one other h h' heq
    obtain ⟨hpackage, hname⟩ := (qualify_inj h h').mp heq
    rw [Consumer.type, Consumer.type, hpackage, hname]
  · intro one other h h' heq
    exact (qualify_inj h h').mp heq

/-- Two classes of one name in a package and in one below it have different keys. -/
theorem qualified_names_are_keys_nested :
    '.' ∉ "Foo".toList ∧
      (⟨"app", "Foo", []⟩ : Consumer).qualified ≠
        (⟨"app.Foo", "Foo", []⟩ : Consumer).qualified := by
  have hdot : '.' ∉ "Foo".toList := by decide
  refine ⟨hdot, ?_⟩
  intro heq
  obtain ⟨-, -, -, -, -, -, hclasses, -⟩ := qualified_names_are_keys
  have htypes := hclasses ⟨"app", "Foo", []⟩ ⟨"app.Foo", "Foo", []⟩ hdot hdot heq
  exact absurd (congrArg TypeRef.package htypes) (by decide)

end PreferenceInjector
