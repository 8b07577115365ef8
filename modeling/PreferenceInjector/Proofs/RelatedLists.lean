import Mathlib.Data.List.Forall2

/-!
# Related lists

Loops of the generator turn a list into one of the same length, element by element. What such a
loop does is said by `List.Forall₂`; these lemmas find the elements behind the related lists.
-/

namespace PreferenceInjector

variable {α β γ : Type} {R : α → β → Prop} {left : List α}

/-- A list is related to some other one when each of its elements is. -/
theorem exists_forall₂_iff :
    (∃ right, List.Forall₂ R left right) ↔ ∀ a ∈ left, ∃ b, R a b := by
  constructor
  · intro h
    obtain ⟨right, h⟩ := h
    induction h with
    | nil => simp
    | cons hab _ ih => exact List.forall_mem_cons.mpr ⟨⟨_, hab⟩, ih⟩
  · intro h
    induction left with
    | nil => exact ⟨[], .nil⟩
    | cons a left ih =>
      obtain ⟨⟨b, hab⟩, hleft⟩ := List.forall_mem_cons.mp h
      obtain ⟨right, hright⟩ := ih hleft
      exact ⟨b :: right, .cons hab hright⟩

/-- A list of which not every element has a property has a first one that lacks it. -/
theorem exists_first_of_not_forall {P : α → Prop} {elements : List α}
    (h : ¬ ∀ a ∈ elements, P a) :
    ∃ before a later, elements = before ++ a :: later ∧ (∀ earlier ∈ before, P earlier) ∧
      ¬ P a := by
  induction elements with
  | nil => exact (h (by simp)).elim
  | cons first elements ih =>
    by_cases hfirst : P first
    · have hrest : ¬ ∀ a ∈ elements, P a := fun hall => h (List.forall_mem_cons.mpr ⟨hfirst, hall⟩)
      obtain ⟨before, a, later, rfl, hbefore, ha⟩ := ih hrest
      exact ⟨first :: before, a, later, rfl, List.forall_mem_cons.mpr ⟨hfirst, hbefore⟩, ha⟩
    · exact ⟨[], first, elements, rfl, by simp, hfirst⟩

/-- Every element of a related list is related to one of the other list. -/
theorem exists_of_forall₂_mem {right : List β} (h : List.Forall₂ R left right) {b : β}
    (hb : b ∈ right) : ∃ a ∈ left, R a b := by
  induction h with
  | nil => cases hb
  | cons hab _ ih =>
    rcases List.mem_cons.mp hb with rfl | hb
    · exact ⟨_, List.mem_cons_self, hab⟩
    · obtain ⟨a, ha, hab⟩ := ih hb
      exact ⟨a, List.mem_cons_of_mem _ ha, hab⟩

/-- Every element of a list stands beside a related one of the other list. -/
theorem exists_mem_zip_of_forall₂ {right : List β} (h : List.Forall₂ R left right) {a : α}
    (ha : a ∈ left) : ∃ b, (a, b) ∈ left.zip right ∧ R a b := by
  induction h with
  | nil => cases ha
  | cons hab _ ih =>
    rcases List.mem_cons.mp ha with rfl | ha
    · exact ⟨_, List.mem_cons_self, hab⟩
    · obtain ⟨b, hb, hab⟩ := ih ha
      exact ⟨b, List.mem_cons_of_mem _ hb, hab⟩

/-- Something holds of all elements of one list when something else does of all elements of the
other, if the two are the same for related elements. -/
theorem forall_mem_iff_of_forall₂ {P : α → Prop} {Q : β → Prop} {right : List β}
    (h : List.Forall₂ R left right) (hiff : ∀ a ∈ left, ∀ b ∈ right, R a b → (P a ↔ Q b)) :
    (∀ a ∈ left, P a) ↔ ∀ b ∈ right, Q b := by
  constructor
  · intro hleft b hb
    obtain ⟨a, ha, hab⟩ := exists_of_forall₂_mem h hb
    exact (hiff a ha b hb hab).mp (hleft a ha)
  · intro hright a ha
    obtain ⟨b, hb, hab⟩ := exists_of_forall₂_mem h.flip ha
    exact (hiff a ha b hb hab).mpr (hright b hb)

/-- Lists related through a list in between. -/
theorem forall₂_comp {S : β → γ → Prop} {right : List γ} :
    List.Forall₂ (fun a c => ∃ b, R a b ∧ S b c) left right ↔
      ∃ middle, List.Forall₂ R left middle ∧ List.Forall₂ S middle right := by
  constructor
  · intro h
    induction h with
    | nil => exact ⟨[], .nil, .nil⟩
    | cons hac _ ih =>
      obtain ⟨b, hab, hbc⟩ := hac
      obtain ⟨middle, hleft, hright⟩ := ih
      exact ⟨b :: middle, .cons hab hleft, .cons hbc hright⟩
  · intro h
    obtain ⟨middle, hleft, hright⟩ := h
    induction hleft generalizing right with
    | nil =>
      cases hright
      exact .nil
    | cons hab _ ih =>
      cases hright with
      | cons hbc hright => exact .cons ⟨_, hab, hbc⟩ (ih hright)

/-- A list is the image of another one when its elements are. -/
theorem forall₂_eq_map_iff {f : β → γ} {middle : List β} {right : List γ} :
    List.Forall₂ (fun b c => c = f b) middle right ↔ right = middle.map f := by
  constructor
  · intro h
    induction h with
    | nil => rfl
    | cons hbc _ ih => rw [hbc, ih, List.map_cons]
  · intro heq
    subst heq
    rw [List.forall₂_map_right_iff, List.forall₂_same]
    exact fun _ _ => rfl

/-- Related lists are related in any way in which their related elements are. -/
theorem forall₂_imp_of_mem {S : α → β → Prop} {right : List β} (h : List.Forall₂ R left right)
    (himp : ∀ a ∈ left, ∀ b ∈ right, R a b → S a b) : List.Forall₂ S left right := by
  induction h with
  | nil => exact .nil
  | @cons a b left right hab _ ih =>
    refine .cons (himp a List.mem_cons_self b List.mem_cons_self hab) (ih ?_)
    intro a' ha' b' hb'
    exact himp a' (List.mem_cons_of_mem _ ha') b' (List.mem_cons_of_mem _ hb')

/-- What holds between the elements of a list holds between those related to them. -/
theorem pairwise_of_forall₂ {S : α → α → Prop} {T : β → β → Prop} {right : List β}
    (h : List.Forall₂ R left right) (hleft : left.Pairwise S)
    (himp : ∀ a a' b b', R a b → R a' b' → S a a' → T b b') : right.Pairwise T := by
  induction h with
  | nil => exact .nil
  | @cons a b left right hab hrest ih =>
    obtain ⟨ha, hleft⟩ := List.pairwise_cons.mp hleft
    refine List.pairwise_cons.mpr ⟨?_, ih hleft⟩
    intro b' hb'
    obtain ⟨a', ha', hab'⟩ := exists_of_forall₂_mem hrest hb'
    exact himp a a' b b' hab hab' (ha a' ha')

end PreferenceInjector
