import PreferenceInjector.Settings.Value
import Mathlib.Data.List.Nodup

/-!
# Tables by their keys

A table is a list of keys with values. Its first entry under a key counts, so nothing is hidden
when no key stands there twice. Changing an entry, adding one under a new key and dropping entries
keep this. A table without repeated keys that is laid over another one then has, under every key,
its own value over the one below, or the one below where it has none.
-/

namespace PreferenceInjector.Settings

variable {α : Type} {P : α → Prop} {key other : String} {a : α} {entries : List (String × α)}

/-- No key stands in the table twice. -/
def DistinctKeys (entries : List (String × α)) : Prop := (entries.map (·.1)).Nodup

/-- No key stands in the table twice, and its values have the property. -/
structure WellKeyed (P : α → Prop) (entries : List (String × α)) : Prop where
  keys : DistinctKeys entries
  values : ∀ entry ∈ entries, P entry.2

/-! ### Looking up -/

/-- What is found under a key stands in the table. -/
theorem mem_of_lookup (h : lookup key entries = some a) : (key, a) ∈ entries := by
  induction entries with
  | nil => cases h
  | cons entry rest ih =>
    rw [lookup] at h
    split at h
    · next hkey =>
      cases h
      exact hkey ▸ List.mem_cons_self
    · exact List.mem_cons_of_mem _ (ih h)

/-- Nothing is found under a key that is not in the table. -/
theorem lookup_eq_none_iff : lookup key entries = none ↔ key ∉ entries.map (·.1) := by
  induction entries with
  | nil => simp [lookup]
  | cons entry rest ih =>
    by_cases hkey : entry.1 = key
    · simp [lookup, hkey]
    · simp [lookup, hkey, Ne.symm hkey, ih]

/-- The value under a key that was changed. -/
theorem lookup_upsert_self (change : Option α → α) :
    lookup key (upsert key change entries) = some (change (lookup key entries)) := by
  induction entries with
  | nil => simp [upsert, lookup]
  | cons entry rest ih =>
    by_cases hkey : entry.1 = key
    · simp [upsert, lookup, hkey]
    · simp [upsert, lookup, hkey, ih]

/-- The value under another key. -/
theorem lookup_upsert_of_ne (h : key ≠ other) (change : Option α → α) :
    lookup other (upsert key change entries) = lookup other entries := by
  induction entries with
  | nil => simp [upsert, lookup, h]
  | cons entry rest ih =>
    by_cases hkey : entry.1 = key
    · simp [upsert, lookup, hkey, h]
    · simp [upsert, lookup, hkey, ih]

/-- A new key is added behind the others. -/
theorem upsert_of_lookup_eq_none (h : lookup key entries = none) (change : Option α → α) :
    upsert key change entries = entries ++ [(key, change none)] := by
  induction entries with
  | nil => rfl
  | cons entry rest ih =>
    rw [lookup] at h
    split at h
    · cases h
    · next hkey => rw [upsert, if_neg hkey, ih h, List.cons_append]

/-! ### Changing a table -/

/-- A change under a key adds no key but this one. -/
theorem mem_keys_upsert {change : Option α → α}
    (h : other ∈ (upsert key change entries).map (·.1)) :
    other = key ∨ other ∈ entries.map (·.1) := by
  by_contra hother
  obtain ⟨hne, hmem⟩ := not_or.mp hother
  refine lookup_eq_none_iff.not.mpr (not_not.mpr h) ?_
  rw [lookup_upsert_of_ne (Ne.symm hne), lookup_eq_none_iff.mpr hmem]

/-- A change under a key keeps the keys distinct. -/
theorem DistinctKeys.upsert (h : DistinctKeys entries) (key : String) (change : Option α → α) :
    DistinctKeys (upsert key change entries) := by
  induction entries with
  | nil => simp [Settings.upsert, DistinctKeys]
  | cons entry rest ih =>
    obtain ⟨hentry, hrest⟩ := List.nodup_cons.mp h
    rw [Settings.upsert]
    split
    · exact h
    · next hkey =>
      refine List.nodup_cons.mpr ⟨fun hmem => ?_, ih hrest⟩
      rcases mem_keys_upsert hmem with heq | hmem
      · exact hkey heq
      · exact hentry hmem

/-- The empty table. -/
theorem WellKeyed.nil : WellKeyed P [] := ⟨List.nodup_nil, by simp⟩

/-- What is found in the table has the property. -/
theorem WellKeyed.lookup (h : WellKeyed P entries) (ha : lookup key entries = some a) : P a :=
  h.values _ (mem_of_lookup ha)

/-- The values keep a property that the changed one has. -/
theorem forall_mem_upsert (h : ∀ entry ∈ entries, P entry.2) {change : Option α → α}
    (hchange : P (change (lookup key entries))) :
    ∀ entry ∈ upsert key change entries, P entry.2 := by
  induction entries with
  | nil => exact List.forall_mem_singleton.mpr hchange
  | cons entry rest ih =>
    obtain ⟨hentry, hrest⟩ := List.forall_mem_cons.mp h
    rw [lookup] at hchange
    rw [upsert]
    split at hchange
    · next hkey =>
      rw [if_pos hkey]
      exact List.forall_mem_cons.mpr ⟨hchange, hrest⟩
    · next hkey =>
      rw [if_neg hkey]
      exact List.forall_mem_cons.mpr ⟨hentry, ih hrest hchange⟩

/-- A value is changed into one with the property. -/
theorem WellKeyed.upsert (h : WellKeyed P entries) {change : Option α → α}
    (hchange : P (change (Settings.lookup key entries))) :
    WellKeyed P (Settings.upsert key change entries) :=
  ⟨h.keys.upsert key change, forall_mem_upsert h.values hchange⟩

/-- A value with the property is added under a new key. -/
theorem WellKeyed.append (h : WellKeyed P entries) (hkey : Settings.lookup key entries = none)
    (ha : P a) : WellKeyed P (entries ++ [(key, a)]) := by
  constructor
  · rw [DistinctKeys, List.map_append]
    refine h.keys.append (List.nodup_singleton _) ?_
    simpa [List.disjoint_singleton] using lookup_eq_none_iff.mp hkey
  · exact List.forall_mem_append.mpr ⟨h.values, by simpa using ha⟩

/-- Entries are dropped. -/
theorem WellKeyed.filter (h : WellKeyed P entries) (p : String × α → Bool) :
    WellKeyed P (entries.filter p) :=
  ⟨h.keys.sublist (List.filter_sublist.map _), fun entry hentry =>
    h.values entry (List.mem_of_mem_filter hentry)⟩

/-! ### One table over another -/

variable {later earlier : List (String × Setting)}

/-- A value over nothing stays as it is. -/
@[simp] theorem Setting.over_none (setting : Setting) : setting.over none = setting := by
  cases setting <;> simp [Setting.over]

/-- A scalar takes the place of what lies below. -/
@[simp] theorem Setting.scalar_over (origin : Origin) (value : Scalar) (below : Option Setting) :
    (Setting.scalar origin value).over below = .scalar origin value := by
  simp [Setting.over]

/-- A list takes the place of what lies below. -/
@[simp] theorem Setting.list_over (origin : Origin) (items : List Setting)
    (below : Option Setting) : (Setting.list origin items).over below = .list origin items := by
  simp [Setting.over]

/-- A table with other keys is added to the earlier one. -/
theorem overEntries_of_distinctKeys (h : DistinctKeys (earlier ++ later)) :
    Setting.overEntries later earlier = earlier ++ later := by
  induction later generalizing earlier with
  | nil => rw [Setting.overEntries, List.append_nil]
  | cons entry rest ih =>
    rw [List.append_cons] at h
    have hkey : lookup entry.1 earlier = none := by
      rw [lookup_eq_none_iff]
      intro hmem
      have hbefore : DistinctKeys (earlier ++ [entry]) := h.sublist (by simp)
      rw [DistinctKeys, List.map_append, List.nodup_append] at hbefore
      exact hbefore.2.2 _ hmem _ List.mem_cons_self rfl
    rw [Setting.overEntries, upsert_of_lookup_eq_none hkey, Setting.over_none, ih h,
      ← List.append_cons]

/-- A table without repeated keys stays as it is over an empty one. -/
theorem overEntries_nil (h : DistinctKeys later) : Setting.overEntries later [] = later :=
  overEntries_of_distinctKeys h

/-- Under a key of the later table stands its value over the earlier one. -/
theorem lookup_overEntries (h : DistinctKeys later) (key : String)
    (earlier : List (String × Setting)) :
    lookup key (Setting.overEntries later earlier) =
      match lookup key later with
      | some setting => some (setting.over (lookup key earlier))
      | none => lookup key earlier := by
  induction later generalizing earlier with
  | nil => simp [Setting.overEntries, lookup]
  | cons entry rest ih =>
    obtain ⟨hentry, hrest⟩ := List.nodup_cons.mp h
    rw [Setting.overEntries, ih hrest]
    by_cases hkey : entry.1 = key
    · have hnone : lookup key rest = none := lookup_eq_none_iff.mpr (hkey ▸ hentry)
      simp [lookup, hkey, hnone, lookup_upsert_self]
    · simp [lookup, hkey, lookup_upsert_of_ne hkey]

/-- A table stays without repeated keys when another one is laid over it. -/
theorem DistinctKeys.overEntries (h : DistinctKeys earlier) (later : List (String × Setting)) :
    DistinctKeys (Setting.overEntries later earlier) := by
  induction later generalizing earlier with
  | nil => exact h
  | cons entry rest ih =>
    rw [Setting.overEntries]
    exact ih (h.upsert _ _)

end PreferenceInjector.Settings
