import PreferenceInjector.Proofs.Settings.Layers
import PreferenceInjector.Settings.Environment
import Mathlib.Data.List.Induction

/-!
# Variables give every key once

Of two entries with the same key in the braces of a variable's text the later one counts, so the
value of a variable repeats no key in any of its tables. Each variable is a small layer of its own,
with one key at its top, and the layer of all variables is what these layers make when each is laid
over the ones before it.
-/

namespace PreferenceInjector.Settings.Environment

open Taken

section Tried

variable {α β : Type} {r s : List Char} {P : α → Prop} {Q : β → Prop}

/-- What is taken has the property. -/
def Tried.Gives (P : α → Prop) (tried : Tried α s) : Prop := ∀ found ∈ tried, P found.1

/-- What is made of a value that is taken has the properties that follow from those of the value. -/
theorem Tried.Gives.widen {tried : Tried α r} (hgives : tried.Gives P) {f : α → β}
    (hf : ∀ a, P a → Q (f a)) (h : r.length ≤ s.length) :
    (tried.widen h f : Tried β s).Gives Q := by
  intro found hfound
  obtain ⟨before, hbefore, rfl⟩ := Option.map_eq_some_iff.mp hfound
  exact hf _ (hgives before hbefore)

/-- White space around a value does not change it. -/
theorem Tried.Gives.spaced {tried : Tried α s} (h : tried.Gives P) : tried.spaced.Gives P := by
  intro found hfound
  obtain ⟨before, hbefore, rfl⟩ := Option.map_eq_some_iff.mp hfound
  exact h before hbefore

/-- What every value is turned into has the property. -/
theorem Tried.gives_widen {tried : Tried α r} {f : α → β} (hf : ∀ a, Q (f a))
    (h : r.length ≤ s.length) : (tried.widen h f : Tried β s).Gives Q :=
  Tried.Gives.widen (P := fun _ => True) (fun _ _ => trivial) (fun a _ => hf a) h

end Tried

/-- Values, tables and lists of a variable's text repeat no key in any table. -/
theorem gives_keysDistinct : (∀ s, (takeValue s).Gives Value.KeysDistinct) ∧
    (∀ s, (takeEntries s).Gives (WellKeyed Value.KeysDistinct)) ∧
    ∀ s, (takeItems s).Gives fun items => ∀ item ∈ items, item.KeysDistinct := by
  refine takeValue.mutual_induct _ _ _ ?value ?noEntry ?noKey ?noValue ?entry ?lastEntry ?noItem
    ?noFirst ?item ?lastItem
  case value =>
    intro s blanks r hr hrun hitems hentries
    rw [takeValue, hrun]
    refine Tried.Gives.spaced ?_
    split
    · next r₁ h _ => exact (hitems r₁ h).widen (fun _ h => .list h) _
    · split
      · next r₁ h _ => exact (hentries r₁ h).widen (fun _ h => .table h.keys h.values) _
      · exact Tried.gives_widen (fun _ => .scalar _) _
  case noEntry =>
    intro s mark r₁ h hmark
    rw [takeEntries, hmark]
    rintro found ⟨⟩
    exact .nil
  case noKey =>
    intro s hmark hkey
    rw [takeEntries, hmark]
    simp only [hkey]
    rintro found ⟨⟩
  case noValue =>
    intro s hmark key t ht hkey hvalue ih
    rw [takeEntries, hmark]
    simp only [hkey, hvalue]
    rintro found ⟨⟩
  case entry =>
    intro s hmark key t ht hkey value r hr hvalue comma r₁ h hcomma ih hentries
    rw [takeEntries, hmark]
    simp only [hkey, hvalue, hcomma]
    refine hentries.widen (fun entries hkeyed => hkeyed.upsert ?_) _
    cases hlookup : lookup key entries with
    | none => exact ih _ hvalue
    | some later => exact hkeyed.lookup hlookup
  case lastEntry =>
    intro s hmark key t ht hkey value r hr hvalue hcomma ih
    rw [takeEntries, hmark]
    simp only [hkey, hvalue, hcomma]
    refine Tried.gives_widen (fun _ => WellKeyed.nil.upsert ?_) _
    exact ih _ hvalue
  case noItem =>
    intro s mark r₁ h hmark
    rw [takeItems, hmark]
    rintro found ⟨⟩
    exact List.forall_mem_nil _
  case noFirst =>
    intro s hmark hvalue ih
    rw [takeItems, hmark]
    simp only [hvalue]
    rintro found ⟨⟩
  case item =>
    intro s hmark value r hr hvalue comma r₁ h hcomma ih hitems
    rw [takeItems, hmark]
    simp only [hvalue, hcomma]
    refine hitems.widen (fun items h => ?_) _
    exact List.forall_mem_cons.mpr ⟨ih _ hvalue, h⟩
  case lastItem =>
    intro s hmark value r hr hvalue hcomma ih
    rw [takeItems, hmark]
    simp only [hvalue, hcomma]
    exact Tried.gives_widen (fun _ => List.forall_mem_singleton.mpr (ih _ hvalue)) _

/-- The value of a variable repeats no key in any table. -/
theorem keysDistinct_valueOf (text : String) : (valueOf text).KeysDistinct := by
  unfold valueOf
  split
  · next value _ htaken => exact gives_keysDistinct.1 _ _ htaken
  · exact .scalar _

/-- A value under a key of several parts repeats no key in any table. -/
theorem keysDistinct_nest {value : Value} (h : value.KeysDistinct) (path : List String) :
    (nest value path).KeysDistinct := by
  induction path with
  | nil => exact h
  | cons key path ih =>
    rw [nest]
    exact .table (List.nodup_singleton _) (List.forall_mem_singleton.mpr ih)

/-! ### One layer for each variable -/

/-- The layer of one variable. -/
def layerOf (var : String × String) : List (String × Setting) :=
  match keyOf? var.1 with
  | some (key :: rest) => Value.entriesFrom .environment [(key, nest (valueOf var.2) rest)]
  | _ => []

/-- No two of the variables set the same key. -/
def SetOnce (key : KnownKey) (environment : List (String × String)) : Prop :=
  environment.Pairwise fun earlier later =>
    key.given? (layerOf earlier) = none ∨ key.given? (layerOf later) = none

variable {environment : List (String × String)} {key : KnownKey}

/-- A variable is laid over the ones before it. -/
theorem read_append (environment : List (String × String)) (var : String × String) :
    read (environment ++ [var]) =
      Setting.overEntries (layerOf var) (read environment) := by
  simp only [read, List.foldl_append, List.foldl_cons, List.foldl_nil, layerOf]
  rcases keyOf? var.1 with _ | (_ | ⟨key, rest⟩)
  · simp [Setting.overEntries]
  · simp [Setting.overEntries]
  · simp [Value.entriesFrom]

/-- The layer of a variable repeats no key. -/
theorem sectionsKeyed_layerOf (var : String × String) : SectionsKeyed (layerOf var) := by
  unfold layerOf
  split
  · next key rest _ =>
    have hvalue := keysDistinct_nest (keysDistinct_valueOf var.2) rest
    exact .of_entriesFrom (WellKeyed.nil.append rfl hvalue) _
  · exact .nil

/-- The layer of all variables repeats no key. -/
theorem sectionsKeyed_read (environment : List (String × String)) :
    SectionsKeyed (read environment) := by
  induction environment using List.reverseRecOn with
  | nil => exact .nil
  | append_singleton environment var ih =>
    rw [read_append]
    exact (sectionsKeyed_layerOf var).overEntries ih

/-- A key that no two variables set has the value of the variable that sets it. -/
theorem given?_read_eq_some_iff (htables : ∀ var ∈ environment, GivesTables (layerOf var))
    (honce : SetOnce key environment) {setting : Setting} :
    key.given? (read environment) = some setting ↔
      ∃ var ∈ environment, key.given? (layerOf var) = some setting := by
  induction environment using List.reverseRecOn generalizing setting with
  | nil =>
    have hnone : key.given? (read []) = none := rfl
    simp [hnone]
  | append_singleton environment var ih =>
    obtain ⟨hbefore, hvar⟩ := List.forall_mem_append.mp htables
    rw [List.forall_mem_singleton] at hvar
    obtain ⟨hpairs, -, hlast⟩ := List.pairwise_append.mp honce
    have hrest : ∀ setting, key.given? (read environment) = some setting ↔
        ∃ other ∈ environment, key.given? (layerOf other) = some setting :=
      fun _ => ih hbefore hpairs
    rw [read_append, given?_overEntries (sectionsKeyed_layerOf var) hvar]
    have hmem : (∃ other ∈ environment ++ [var], key.given? (layerOf other) = some setting) ↔
        key.given? (read environment) = some setting ∨
          key.given? (layerOf var) = some setting := by
      simp [hrest, or_and_right, exists_or]
    rw [hmem]
    cases hown : key.given? (layerOf var) with
    | none => simp
    | some own =>
      have hnone : key.given? (read environment) = none := by
        rw [Option.eq_none_iff_forall_not_mem]
        intro other hother
        obtain ⟨earlier, hearlier, hset⟩ := (hrest other).mp hother
        rcases hlast earlier hearlier var (List.mem_singleton_self _) with h | h
        · cases h.symm.trans hset
        · cases h.symm.trans hown
      simp [hnone]

end PreferenceInjector.Settings.Environment
