import Mathlib.Order.Lattice
import Mathlib.Tactic.Set
import Mathlib.Tactic.SplitIfs
import PreferenceInjector.Declaration.Report

/-!
# The place reached last

While a text is read in vain, a record keeps the place that the failing rules reached last and the
rules that failed there. Noting a failure moves the record to the place of the rule if that lies
further on, whether or not the rule itself is written down. So the record never leaves a place
behind that some rule reached, it lists only rules that failed at its place, and it lists at least
one of them once it has changed at all.
-/

namespace PreferenceInjector.Declaration

/-- The rule failed where `left` characters were left, in the given try or inside it. -/
inductive Miss.Tells (rule : Rule) (left : Nat) : Miss → Prop
  | here (inner : List Miss) : Tells rule left (.mk rule left inner)
  | inside {outer : Rule} {at? : Nat} {inner : List Miss} {miss : Miss} (hmem : miss ∈ inner)
      (h : miss.Tells rule left) : Tells rule left (.mk outer at? inner)

namespace Furthest

variable {furthest next : Furthest} {rule : Rule} {left before : Nat}

/-! ### One failure -/

/-- Rules are missed at the place of the record only. -/
theorem eq_left_of_countAt_eq_succ (h : furthest.countAt left = before + 1) :
    left = furthest.left := by
  unfold countAt at h
  split_ifs at h with heq
  exact heq

/-- The record moves to the further one of its place and that of the rule. -/
theorem note_left (furthest : Furthest) (rule : Rule) (left before : Nat) :
    (furthest.note rule left before).left = min furthest.left left := by
  unfold note
  split_ifs with hcount heq hless
  · rw [eq_left_of_countAt_eq_succ hcount, min_self]
  · rw [heq, min_self]
  · exact (min_eq_right hless.le).symm
  · exact (min_eq_left (not_lt.mp hless)).symm

/-- A listed rule was listed before at the same place, or is the one that failed there. -/
theorem of_mem_note {other : Rule} (h : other ∈ (furthest.note rule left before).rules) :
    (other ∈ furthest.rules ∧ (furthest.note rule left before).left = furthest.left) ∨
      (other = rule ∧ (furthest.note rule left before).left = left) := by
  unfold note at h ⊢
  split_ifs at h ⊢ with hcount heq hless
  · exact .inl ⟨h, rfl⟩
  · rcases List.mem_append.mp h with hold | hnew
    · exact .inl ⟨List.mem_of_mem_take hold, heq⟩
    · exact .inr ⟨List.mem_singleton.mp hnew, rfl⟩
  · exact .inr ⟨List.mem_singleton.mp h, rfl⟩
  · exact .inl ⟨h, rfl⟩

/-- A failure leaves the record as it was, or some rule is listed after it. -/
theorem note_eq_or_ne_nil (furthest : Furthest) (rule : Rule) (left before : Nat) :
    furthest.note rule left before = furthest ∨ (furthest.note rule left before).rules ≠ [] := by
  unfold note
  split_ifs
  · exact .inl rfl
  · exact .inr (by simp)
  · exact .inr (by simp)
  · exact .inl rfl

/-- A failure at a place that no listed rule has passed is listed. -/
theorem note_ne_nil (h : furthest.rules = [] → left ≤ furthest.left) :
    (furthest.note rule left (furthest.countAt left)).rules ≠ [] := by
  unfold note
  split_ifs with hcount heq hless
  · omega
  · simp
  · simp
  · intro hempty
    exact (Nat.lt_or_eq_of_le (h hempty)).elim hless heq

/-! ### Several failures -/

/-- The record `next` comes from `furthest` by taking in failures, which tell a rule and a place
when `Tells` holds: it has reached all their places, lists nothing else, and lists something if it
has changed. -/
structure Extends (Tells : Rule → Nat → Prop) (furthest next : Furthest) : Prop where
  le : next.left ≤ furthest.left
  reached : ∀ rule left, Tells rule left → next.left ≤ left
  listed : ∀ rule ∈ next.rules,
    (rule ∈ furthest.rules ∧ next.left = furthest.left) ∨ Tells rule next.left
  changed : next = furthest ∨ next.rules ≠ []

/-- Without failures the record stays. -/
theorem Extends.refl (furthest : Furthest) : Extends (fun _ _ => False) furthest furthest where
  le := Nat.le_refl _
  reached _ _ h := h.elim
  listed _ h := .inl ⟨h, rfl⟩
  changed := .inl rfl

/-- Failures are taken in one after the other. -/
theorem Extends.trans {Tells Tells' : Rule → Nat → Prop} {last : Furthest}
    (h : Extends Tells furthest next) (h' : Extends Tells' next last) :
    Extends (fun rule left => Tells rule left ∨ Tells' rule left) furthest last where
  le := Nat.le_trans h'.le h.le
  reached rule left htells := by
    rcases htells with htells | htells
    · exact Nat.le_trans h'.le (h.reached rule left htells)
    · exact h'.reached rule left htells
  listed rule hrule := by
    rcases h'.listed rule hrule with ⟨hnext, hplace⟩ | htells
    · rcases h.listed rule hnext with ⟨hfurthest, hplace'⟩ | htells
      · exact .inl ⟨hfurthest, hplace.trans hplace'⟩
      · exact .inr (.inl (hplace ▸ htells))
    · exact .inr (.inr htells)
  changed := by
    rcases h'.changed with hlast | hlast
    · rw [hlast]
      exact h.changed
    · exact .inr hlast

/-- The failure of one rule is taken in. -/
theorem extends_note (furthest : Furthest) (rule : Rule) (left before : Nat) :
    Extends (fun other place => other = rule ∧ place = left) furthest
      (furthest.note rule left before) where
  le := by simp [note_left]
  reached := by
    rintro other place ⟨-, rfl⟩
    simp [note_left]
  listed other hother := of_mem_note hother
  changed := note_eq_or_ne_nil furthest rule left before

/-- What is told may be said in other words. -/
theorem Extends.congr {Tells Tells' : Rule → Nat → Prop} (h : Extends Tells furthest next)
    (hiff : ∀ rule left, Tells rule left ↔ Tells' rule left) : Extends Tells' furthest next := by
  have heq : Tells = Tells' := funext fun rule => funext fun left => propext (hiff rule left)
  rwa [← heq]

mutual

/-- A miss is taken in with all that failed inside it. -/
theorem extends_add (furthest : Furthest) : (miss : Miss) →
    Extends (fun rule left => miss.Tells rule left) furthest (furthest.add miss)
  | .mk rule left inner => by
    rw [add]
    refine ((extends_addAll furthest inner).trans (extends_note _ rule left _)).congr ?_
    intro other place
    constructor
    · rintro (⟨miss, hmem, htells⟩ | ⟨rfl, rfl⟩)
      · exact .inside hmem htells
      · exact .here inner
    · intro htells
      cases htells with
      | here => exact .inr ⟨rfl, rfl⟩
      | inside hmem htells => exact .inl ⟨_, hmem, htells⟩

/-- Misses are taken in one after the other. -/
theorem extends_addAll (furthest : Furthest) : (misses : List Miss) →
    Extends (fun rule left => ∃ miss ∈ misses, miss.Tells rule left) furthest
      (furthest.addAll misses)
  | [] => by
    rw [addAll]
    exact (Extends.refl furthest).congr (by simp)
  | miss :: rest => by
    rw [addAll]
    exact ((extends_add furthest miss).trans (extends_addAll _ rest)).congr (by simp)

end

/-! ### The record of a text -/

/-- Taking in misses one list after the other. -/
theorem addAll_append (furthest : Furthest) (misses more : List Miss) :
    furthest.addAll (misses ++ more) = (furthest.addAll misses).addAll more := by
  induction misses generalizing furthest with
  | nil => rw [List.nil_append, addAll]
  | cons miss misses ih => rw [List.cons_append, addAll, addAll, ih]

/-- Some rule is missed in a text that is no declaration file: at least the end of the input where
the reading of the text ends. -/
theorem ofText_ne_nil (s : List Char) : (ofText s).rules ≠ [] := by
  rw [ofText, missesOf, add, addAll_append]
  set start : Furthest := ⟨s.length, []⟩
  set reached := start.addAll (readDocument s).misses with hreached
  have hextends : Extends _ start reached := extends_addAll start _
  have hend : (reached.addAll [.mk .endOfInput (readDocument s).rest.1.length []]).rules ≠ [] := by
    simp only [addAll, add]
    apply note_ne_nil
    intro hempty
    rcases hextends.changed with hstart | hne
    · rw [hstart]
      exact (readDocument s).rest.2
    · exact (hne hempty).elim
  rcases note_eq_or_ne_nil _ .file s.length (start.countAt s.length) with hsame | hne
  · rwa [hsame]
  · exact hne

/-- No rule got further than the place of the record. -/
theorem ofText_reached {s : List Char} (h : (missesOf s).Tells rule left) :
    (ofText s).left ≤ left :=
  (extends_add ⟨s.length, []⟩ (missesOf s)).reached rule left h

/-- The end of the input is missed where the reading of a text ends. -/
theorem ofText_left_le (s : List Char) : (ofText s).left ≤ (readDocument s).rest.1.length :=
  ofText_reached (.inside (List.mem_append_right _ List.mem_cons_self) (.here []))

/-- Every listed rule failed at the place of the record. -/
theorem tells_of_mem_ofText {s : List Char} (h : rule ∈ (ofText s).rules) :
    (missesOf s).Tells rule (ofText s).left := by
  rcases (extends_add ⟨s.length, []⟩ (missesOf s)).listed rule h with ⟨hstart, -⟩ | htells
  · cases hstart
  · exact htells

end Furthest

end PreferenceInjector.Declaration
