import PreferenceInjector.Text.Taken
import Mathlib.Data.List.Basic

/-!
# Properties of what is taken

A property of the values that are taken off a text is shown step by step: of what one step gives,
from what the steps before it have given. Nothing is said of a step that takes nothing.
-/

namespace PreferenceInjector

namespace Taken

variable {α β : Type} {s : List Char} {P : α → Prop} {Q : β → Prop}

/-- What is taken has the property. -/
def Gives (P : α → Prop) (taken : Taken α s) : Prop := ∀ found ∈ taken, P found.1

/-- A character satisfies what is asked of it. -/
theorem gives_one (p : Char → Bool) (s : List Char) : (one p s).Gives (p · = true) := by
  intro found hfound
  cases s with
  | nil => cases hfound
  | cons c rest =>
    rw [one] at hfound
    split at hfound
    · next hc =>
      cases hfound
      exact hc
    · cases hfound

/-- What is made of a value that is taken has the properties that follow from those of the value. -/
theorem Gives.as {taken : Taken α s} (h : taken.Gives P) {f : α → β} (hf : ∀ a, P a → Q (f a)) :
    (taken.as f).Gives Q := by
  intro found hfound
  obtain ⟨before, hbefore, rfl⟩ := Option.map_eq_some_iff.mp hfound
  exact hf _ (h before hbefore)

/-- What every value is turned into has the property. -/
theorem gives_as {taken : Taken α s} {f : α → β} (h : ∀ a, Q (f a)) : (taken.as f).Gives Q :=
  Gives.as (P := fun _ => True) (fun _ _ => trivial) fun a _ => h a

/-- What may be made of a value that is taken has the properties that follow from those of the
value. -/
theorem Gives.asMaybe {taken : Taken α s} (h : taken.Gives P) {f : α → Option β}
    (hf : ∀ a, P a → ∀ b ∈ f a, Q b) : (taken.asMaybe f).Gives Q := by
  intro found hfound
  obtain ⟨before, hbefore, hmap⟩ := Option.bind_eq_some_iff.mp hfound
  obtain ⟨b, hb, rfl⟩ := Option.map_eq_some_iff.mp hmap
  exact hf _ (h before hbefore) b hb

/-- A choice gives what has a property when both of its parts do. -/
theorem Gives.or {first : Taken α s} (hfirst : first.Gives P) {second : Unit → Taken α s}
    (hsecond : (second ()).Gives P) : (first.or second).Gives P := by
  intro found hfound
  cases first with
  | none => exact hsecond found hfound
  | some value => exact hfirst found hfound

/-- What is taken behind values with a property has the property that it has behind each of them. -/
theorem Gives.andThen {first : Taken α s} (hfirst : first.Gives P)
    {next : α → (r : List Char) → r.length < s.length → Taken β r}
    (hnext : ∀ a r shorter, P a → (next a r shorter).Gives Q) : (first.andThen next).Gives Q := by
  intro found hfound
  obtain ⟨⟨a, r, shorter⟩, ha, hmap⟩ := Option.bind_eq_some_iff.mp hfound
  obtain ⟨⟨b, last⟩, hb, rfl⟩ := Option.map_eq_some_iff.mp hmap
  exact hnext a r shorter (hfirst _ ha) _ hb

/-- What follows something else, whatever that is. -/
theorem gives_andThen {first : Taken α s}
    {next : α → (r : List Char) → r.length < s.length → Taken β r}
    (hnext : ∀ a r shorter, (next a r shorter).Gives Q) : (first.andThen next).Gives Q :=
  Gives.andThen (P := fun _ => True) (fun _ _ => trivial) fun a r shorter _ => hnext a r shorter

/-- What is kept behind values with a property has the property that it has behind each of them. -/
theorem Gives.finish {first : Taken α s} (hfirst : first.Gives P)
    {next : α → (r : List Char) → r.length < s.length → Kept β r}
    (hnext : ∀ a r shorter, P a → Q (next a r shorter).1) : (first.finish next).Gives Q := by
  intro found hfound
  obtain ⟨⟨a, r, shorter⟩, ha, rfl⟩ := Option.map_eq_some_iff.mp hfound
  exact hnext a r shorter (hfirst _ ha)

/-- What is taken again and again has the property every time. -/
theorem forall_mem_many {take : (s : List Char) → Taken α s} (h : ∀ s, (take s).Gives P)
    (s : List Char) : ∀ a ∈ (many take s).1, P a := by
  fun_induction many take s with
  | case1 => simp [Kept.done]
  | case2 s a rest shorter htake more last hlast hmany ih =>
    rw [hmany] at ih
    exact List.forall_mem_cons.mpr ⟨h s _ htake, ih⟩

/-- What follows something that may be missing. -/
theorem gives_keptAndThen {first : Kept α s} (hfirst : P first.1)
    {next : α → (r : List Char) → r.length ≤ s.length → Taken β r}
    (hnext : ∀ a r shorter, P a → (next a r shorter).Gives Q) : (first.andThen next).Gives Q := by
  intro found hfound
  obtain ⟨⟨b, last, hlast⟩, hb, rfl⟩ := Option.map_eq_some_iff.mp hfound
  exact hnext first.1 first.2.1 first.2.2 hfirst _ hb

/-- What follows something that may be missing, whatever that is. -/
theorem gives_skip {first : Kept α s}
    {next : α → (r : List Char) → r.length ≤ s.length → Taken β r}
    (hnext : ∀ a r shorter, (next a r shorter).Gives Q) : (first.andThen next).Gives Q :=
  gives_keptAndThen (P := fun _ => True) trivial fun a r shorter _ => hnext a r shorter

/-- What need not be there has the property if it is. -/
theorem Gives.maybe {taken : Taken α s} (h : taken.Gives P) : ∀ a ∈ (maybe taken).1, P a := by
  intro a ha
  cases taken with
  | none => cases ha
  | some found =>
    cases ha
    exact h found rfl

/-- What a list that need not be there holds has the property. -/
theorem Gives.forall_mem_maybe {taken : Taken (List α) s}
    (h : taken.Gives fun list => ∀ a ∈ list, P a) : ∀ a ∈ (Taken.maybe taken).1.getD [], P a := by
  cases taken with
  | none => exact List.forall_mem_nil _
  | some found => exact h found rfl

end Taken

end PreferenceInjector
