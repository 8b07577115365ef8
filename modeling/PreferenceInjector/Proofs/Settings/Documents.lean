import PreferenceInjector.Proofs.Settings.Entries
import PreferenceInjector.Proofs.TakenValues
import PreferenceInjector.Settings.Toml.Document

/-!
# Documents give every key once

A document is refused when it gives a key twice. So in the table that it stands for no key is
repeated, nor in any table inside it, whether this was opened by a header, made by dotted keys,
written in braces or collected in an array. The property is kept by every change that a line makes
to the tables read so far.
-/

namespace PreferenceInjector.Settings

/-- No table in the value repeats a key. -/
inductive Value.KeysDistinct : Value → Prop
  | scalar (value : Scalar) : KeysDistinct (.scalar value)
  | list {items : List Value} (h : ∀ item ∈ items, item.KeysDistinct) : KeysDistinct (.list items)
  | table {entries : List (String × Value)} (hkeys : DistinctKeys entries)
      (h : ∀ entry ∈ entries, entry.2.KeysDistinct) : KeysDistinct (.table entries)

namespace Toml

open Taken

/-- No table in the item repeats a key. -/
inductive Item.KeysDistinct : Item → Prop
  | value {value : Value} (h : value.KeysDistinct) : KeysDistinct (.value value)
  | table (implied dotted : Bool) {entries : List (String × Item)} (hkeys : DistinctKeys entries)
      (h : ∀ entry ∈ entries, entry.2.KeysDistinct) : KeysDistinct (.table implied dotted entries)
  | tables {all : List (List (String × Item))} (hkeys : ∀ entries ∈ all, DistinctKeys entries)
      (h : ∀ entries ∈ all, ∀ entry ∈ entries, entry.2.KeysDistinct) : KeysDistinct (.tables all)

/-- The entries of a table, in which no key is repeated at any depth. -/
abbrev IsKeyed (entries : List (String × Item)) : Prop := WellKeyed Item.KeysDistinct entries

variable {entries next : List (String × Item)} {path : List String} {key : String}

/-- The entries of a table in an item. -/
theorem Item.KeysDistinct.isKeyed {implied dotted : Bool}
    (h : (Item.table implied dotted entries).KeysDistinct) : IsKeyed entries := by
  cases h with
  | table _ _ hkeys hentries => exact ⟨hkeys, hentries⟩

/-- The entries of the tables in an array. -/
theorem Item.keysDistinct_tables {all : List (List (String × Item))} :
    (Item.tables all).KeysDistinct ↔ ∀ entries ∈ all, IsKeyed entries := by
  constructor
  · rintro (_ | _ | ⟨hkeys, h⟩) entries hentries
    exact ⟨hkeys entries hentries, h entries hentries⟩
  · exact fun h => .tables (fun entries hentries => (h entries hentries).keys)
      fun entries hentries => (h entries hentries).values

/-- What every step keeps is kept by a run that may stop. -/
theorem foldlM_keeps {σ β : Type} {P : σ → Prop} {step : σ → β → Option σ} {list : List β}
    (hstep : ∀ b ∈ list, ∀ state state', P state → step state b = some state' → P state')
    {state state' : σ} (h : P state) (hrun : list.foldlM step state = some state') :
    P state' := by
  induction list generalizing state with
  | nil =>
    cases hrun
    exact h
  | cons b list ih =>
    rw [List.foldlM_cons] at hrun
    obtain ⟨between, hfirst, hrest⟩ := Option.bind_eq_some_iff.mp hrun
    rw [List.forall_mem_cons] at hstep
    exact ih hstep.2 (hstep.1 _ _ h hfirst) hrest

/-! ### Changes inside a table -/

/-- A change of one table keeps the tables around it. -/
theorem IsKeyed.changeAt {dotted : Bool}
    {change : Bool → List (String × Item) → Option (List (String × Item))}
    (hchange : ∀ made entries next, IsKeyed entries → change made entries = some next →
      IsKeyed next) {made : Bool} (h : IsKeyed entries)
    (hnext : changeAt dotted change path made entries = some next) : IsKeyed next := by
  induction path generalizing made entries next with
  | nil => exact hchange made entries next h hnext
  | cons key path ih =>
    rw [Toml.changeAt] at hnext
    split at hnext
    · next hnone =>
      obtain ⟨below, hbelow, hsome⟩ := Option.bind_eq_some_iff.mp hnext
      cases hsome
      have hkeyed := ih .nil hbelow
      exact h.append hnone (.table _ _ hkeyed.keys hkeyed.values)
    · cases hnext
    · cases hnext
    · next last earlier htables =>
      obtain ⟨below, hbelow, hsome⟩ := Option.bind_eq_some_iff.mp hnext
      cases hsome
      have hall := Item.keysDistinct_tables.mp (h.lookup htables)
      obtain ⟨hlast, hearlier⟩ := List.forall_mem_cons.mp hall
      exact h.upsert (Item.keysDistinct_tables.mpr
        (List.forall_mem_cons.mpr ⟨ih hlast hbelow, hearlier⟩))
    · next implied made below htable =>
      split at hnext
      · cases hnext
      · obtain ⟨below', hbelow, hsome⟩ := Option.bind_eq_some_iff.mp hnext
        cases hsome
        have hkeyed := ih (h.lookup htable).isKeyed hbelow
        exact h.upsert (.table _ _ hkeyed.keys hkeyed.values)

/-- A value is added under a key that has none. -/
theorem IsKeyed.addPair {item : Item} (h : IsKeyed entries) (hitem : item.KeysDistinct)
    (hnext : addPair entries path key item = some next) : IsKeyed next := by
  refine h.changeAt ?_ hnext
  intro made entries next h hsome
  split at hsome
  · cases hsome
  · next hnew =>
    cases hsome
    rw [Bool.or_eq_true, not_or, Option.not_isSome_iff_eq_none] at hnew
    exact h.append hnew.2 hitem

/-! ### Values -/

/-- The keys of a finished table are those of its items. -/
theorem Item.keys_toEntries (entries : List (String × Item)) :
    (Item.toEntries entries).map (·.1) = entries.map (·.1) := by
  induction entries with
  | nil => rfl
  | cons entry rest ih => rw [Item.toEntries, List.map_cons, List.map_cons, ih]

/-- A finished table. -/
theorem Item.wellKeyed_toEntries (hkeys : DistinctKeys entries)
    (h : ∀ entry ∈ entries, entry.2.toValue.KeysDistinct) :
    WellKeyed Value.KeysDistinct (Item.toEntries entries) := by
  refine ⟨by rwa [DistinctKeys, Item.keys_toEntries], ?_⟩
  clear hkeys
  induction entries with
  | nil => simp [Item.toEntries]
  | cons entry rest ih =>
    rw [List.forall_mem_cons] at h
    rw [Item.toEntries]
    exact List.forall_mem_cons.mpr ⟨h.1, ih h.2⟩

/-- The finished tables of an array are those of its items. -/
theorem Item.toTables_eq (all : List (List (String × Item))) :
    Item.toTables all = all.map fun entries => .table (Item.toEntries entries) := by
  induction all with
  | nil => rfl
  | cons entries rest ih => rw [Item.toTables, List.map_cons, ih]

/-- A finished item. -/
theorem Item.KeysDistinct.toValue {item : Item} (h : item.KeysDistinct) :
    item.toValue.KeysDistinct := by
  induction h with
  | value h => rwa [Item.toValue]
  | table _ _ hkeys _ ih =>
    obtain ⟨hkeys', hvalues⟩ := Item.wellKeyed_toEntries hkeys ih
    rw [Item.toValue]
    exact .table hkeys' hvalues
  | tables hkeys _ ih =>
    rw [Item.toValue, Item.toTables_eq]
    refine .list fun item hitem => ?_
    obtain ⟨entries, hentries, rfl⟩ := List.mem_map.mp (List.mem_reverse.mp hitem)
    obtain ⟨hkeys', hvalues⟩ := Item.wellKeyed_toEntries (hkeys entries hentries)
      (ih entries hentries)
    exact .table hkeys' hvalues

/-- The entries of a finished table that repeats no key. -/
theorem IsKeyed.toEntries (h : IsKeyed entries) :
    WellKeyed Value.KeysDistinct (Item.toEntries entries) :=
  Item.wellKeyed_toEntries h.keys fun entry hentry => (h.values entry hentry).toValue

/-- An inline table. -/
theorem keysDistinct_of_pairs {pairs : Pairs} (h : ∀ pair ∈ pairs, pair.2.KeysDistinct)
    {value : Value} (hvalue : value ∈ tableOfPairs? pairs) : value.KeysDistinct := by
  obtain ⟨entries, hentries, rfl⟩ := Option.map_eq_some_iff.mp hvalue
  suffices hkeyed : IsKeyed entries from .table hkeyed.toEntries.keys hkeyed.toEntries.values
  refine foldlM_keeps ?_ WellKeyed.nil hentries
  intro pair hpair entries next hkeyed hnext
  obtain ⟨path, value⟩ := pair
  cases hlast : path.getLast? with
  | none => simp [hlast] at hnext
  | some key =>
    simp only [hlast] at hnext
    exact hkeyed.addPair (.value (h _ hpair)) hnext

section Nested

variable {value : (s : List Char) → Taken Value s} (h : ∀ s, (value s).Gives Value.KeysDistinct)

include h

/-- An element of an array. -/
theorem gives_takeElement (s : List Char) : (takeElement value s).Gives Value.KeysDistinct :=
  gives_skip fun _ r _ => (h r).finish fun _ _ _ hvalue => hvalue

/-- An array. -/
theorem gives_takeArray (s : List Char) : (takeArray value s).Gives Value.KeysDistinct := by
  refine gives_andThen fun _ r _ => ?_
  refine gives_keptAndThen (P := fun items => ∀ item ∈ items.getD [], item.KeysDistinct) ?_
    fun items r₁ _ hitems => gives_skip fun _ r₂ _ => gives_as fun _ => .list hitems
  refine Gives.forall_mem_maybe ((gives_takeElement h r).finish fun first r₁ _ hfirst => ?_)
  refine List.forall_mem_cons.mpr ⟨hfirst, forall_mem_many (fun t => ?_) r₁⟩
  exact gives_andThen fun _ t₁ _ => gives_takeElement h t₁

/-- A key with its value. -/
theorem gives_takePair (s : List Char) :
    (takePair value s).Gives fun pair => pair.2.KeysDistinct :=
  gives_andThen fun _ _ _ => gives_andThen fun _ _ _ => gives_skip fun _ r _ =>
    (h r).as fun _ hvalue => hvalue

/-- An inline table. -/
theorem gives_takeInlineTable (s : List Char) :
    (takeInlineTable value s).Gives Value.KeysDistinct := by
  refine Gives.asMaybe (P := fun pairs => ∀ pair ∈ pairs, pair.2.KeysDistinct) ?_
    fun pairs hpairs value hvalue => keysDistinct_of_pairs hpairs hvalue
  refine gives_andThen fun _ r _ => ?_
  refine gives_keptAndThen (P := fun pairs => ∀ pair ∈ pairs.getD [], pair.2.KeysDistinct) ?_
    fun pairs r₁ _ hpairs => gives_skip fun _ r₂ _ => gives_as fun _ => hpairs
  refine Gives.forall_mem_maybe ((gives_takePair h r).finish fun first r₁ _ hfirst => ?_)
  refine List.forall_mem_cons.mpr ⟨hfirst, forall_mem_many (fun t => ?_) _⟩
  exact gives_andThen fun _ t₁ _ => (gives_takePair h t₁).finish fun _ _ _ hpair => hpair

end Nested

/-- A value of any depth. -/
theorem gives_takeValue (levels : Nat) (s : List Char) :
    (takeValue levels s).Gives Value.KeysDistinct := by
  have hflat : ∀ s : List Char, (takeValue 0 s).Gives Value.KeysDistinct := by
    intro s
    refine (gives_as fun _ => .scalar _).or ?_
    refine (gives_as fun _ => .scalar _).or ?_
    refine (gives_as fun _ => .scalar _).or ?_
    refine (gives_as fun _ => .table List.nodup_nil (List.forall_mem_nil _)).or ?_
    refine (gives_as fun _ => .scalar _).or ?_
    refine (gives_as fun _ => .scalar _).or ?_
    exact gives_as fun _ => .scalar _
  induction levels generalizing s with
  | zero => exact hflat s
  | succ levels ih =>
    cases levels with
    | zero => exact hflat s
    | succ levels =>
      exact (hflat s).or ((gives_takeArray ih s).or (gives_takeInlineTable ih s))

/-! ### Documents -/

/-- No table in the value of a line repeats a key. -/
def Line.KeysDistinct : Line → Prop
  | .pair _ _ value => value.KeysDistinct
  | .header .. | .arrayHeader .. => True

/-- A key in the brackets of a header has no value. -/
theorem gives_headerKey (make : List String → String → Line)
    (hmake : ∀ path key, (make path key).KeysDistinct) (s : List Char) :
    ((takeKey s).asMaybe fun key => key.getLast?.map (make key.dropLast)).Gives
      Line.KeysDistinct := by
  refine Gives.asMaybe (P := fun _ => True) (fun _ _ => trivial) ?_
  intro key _ line hline
  obtain ⟨last, -, rfl⟩ := Option.map_eq_some_iff.mp hline
  exact hmake _ _

/-- The content of a line. -/
theorem gives_takeLine (s : List Char) : (takeLine s).Gives Line.KeysDistinct := by
  have hheader : (takeHeader s).Gives Line.KeysDistinct := by
    refine (gives_andThen fun _ r _ => ?_).or (gives_andThen fun _ r _ => ?_)
    · exact (gives_headerKey .arrayHeader (fun _ _ => trivial) r).andThen
        fun _ _ _ hline => gives_as fun _ => hline
    · exact (gives_headerKey .header (fun _ _ => trivial) r).andThen
        fun _ _ _ hline => gives_as fun _ => hline
  refine hheader.or ((gives_takePair (gives_takeValue nestingLimit) s).asMaybe ?_)
  rintro ⟨key, value⟩ hvalue line hline
  obtain ⟨last, -, rfl⟩ := Option.map_eq_some_iff.mp hline
  exact hvalue

/-- The line that a line body holds. -/
theorem keysDistinct_of_takeLineBody (s : List Char) :
    ∀ line ∈ (takeLineBody s).1, line.KeysDistinct :=
  (gives_takeLine (takeBlanks s).2.1).maybe

/-- The lines of a document. -/
theorem keysDistinct_of_lines {s : List Char} {lines : List Line} (h : lines? s = some lines) :
    ∀ line ∈ lines, line.KeysDistinct := by
  rw [lines?] at h
  split at h
  · cases h
    intro line hline
    obtain ⟨content, hcontent, rfl⟩ := List.mem_filterMap.mp hline
    rcases List.mem_append.mp hcontent with hended | hlast
    · refine forall_mem_many (P := fun content => ∀ line ∈ content, line.KeysDistinct)
        (fun t => ?_) s _ hended line rfl
      exact gives_keptAndThen (keysDistinct_of_takeLineBody t)
        fun _ _ _ hcontent => gives_as fun _ => hcontent
    · rw [List.mem_singleton] at hlast
      exact keysDistinct_of_takeLineBody _ line hlast.symm
  · cases h

/-- The tables read so far, in which no key is repeated. -/
structure State.IsKeyed (state : State) : Prop where
  root : Toml.IsKeyed state.root
  current : Toml.IsKeyed state.current

variable {state : State}

/-- The open table is put into its place. -/
theorem State.IsKeyed.close (h : state.IsKeyed) (hnext : state.close = some next) :
    Toml.IsKeyed next := by
  rw [State.close] at hnext
  split at hnext
  · cases hnext
    exact h.current
  · refine h.root.changeAt ?_ hnext
    intro made entries next hentries hsome
    split at hsome
    · next hnone =>
      cases hsome
      exact hentries.append hnone (.table _ _ h.current.keys h.current.values)
    · cases hsome
      exact hentries.upsert (.table _ _ h.current.keys h.current.values)
    · cases hsome
  · refine h.root.changeAt ?_ hnext
    intro made entries next hentries hsome
    split at hsome
    · next hnone =>
      cases hsome
      exact hentries.append hnone (Item.keysDistinct_tables.mpr (by simpa using h.current))
    · next earlier htables =>
      cases hsome
      have hearlier := Item.keysDistinct_tables.mp (hentries.lookup htables)
      exact hentries.upsert (Item.keysDistinct_tables.mpr
        (List.forall_mem_cons.mpr ⟨h.current, hearlier⟩))
    · cases hsome

/-- A table inside another one. -/
theorem IsKeyed.entriesAt (h : IsKeyed entries) (path : List String) :
    IsKeyed (entriesAt path entries) := by
  induction path generalizing entries with
  | nil => exact h
  | cons key path ih =>
    rw [Toml.entriesAt]
    split
    · next htable => exact ih (h.lookup htable).isKeyed
    · next last earlier htables =>
      exact ih (Item.keysDistinct_tables.mp (h.lookup htables) last List.mem_cons_self)
    · exact .nil

/-- A line keeps the keys distinct. -/
theorem State.IsKeyed.add (h : state.IsKeyed) {line : Line} (hline : line.KeysDistinct)
    {state' : State} (hadd : state.add line = some state') : state'.IsKeyed := by
  -- A header closes the open table and makes the tables on its path before it opens the next one.
  have hreached : ∀ {path : List String} {closed root : List (String × Item)},
      state.close = some closed →
      changeAt false (fun _ entries => some entries) path false closed = some root →
      Toml.IsKeyed root := by
    intro path closed root hclosed hroot
    refine (h.close hclosed).changeAt ?_ hroot
    intro made entries next hentries hsome
    cases hsome
    exact hentries
  cases line with
  | pair path key value =>
    obtain ⟨current, hcurrent, hsome⟩ := Option.bind_eq_some_iff.mp hadd
    cases hsome
    exact ⟨h.root, h.current.addPair (.value hline) hcurrent⟩
  | header path key =>
    obtain ⟨closed, hclosed, hadd⟩ := Option.bind_eq_some_iff.mp hadd
    obtain ⟨root, hroot, hadd⟩ := Option.bind_eq_some_iff.mp hadd
    have hkeyed := hreached hclosed hroot
    split at hadd
    · cases hadd
      exact ⟨hkeyed, .nil⟩
    · next entries htable =>
      obtain ⟨rest, hrest, hsome⟩ := Option.bind_eq_some_iff.mp hadd
      cases hsome
      refine ⟨hkeyed.changeAt ?_ hrest, ((hkeyed.entriesAt path).lookup htable).isKeyed⟩
      intro made entries next hentries hsome
      cases hsome
      exact hentries.filter _
    · cases hadd
  | arrayHeader path key =>
    obtain ⟨closed, hclosed, hadd⟩ := Option.bind_eq_some_iff.mp hadd
    obtain ⟨root, hroot, hadd⟩ := Option.bind_eq_some_iff.mp hadd
    have hkeyed := hreached hclosed hroot
    split at hadd
    · cases hadd
      exact ⟨hkeyed, .nil⟩
    · cases hadd
      exact ⟨hkeyed, .nil⟩
    · cases hadd

/-- No table in a document repeats a key. -/
theorem wellKeyed_of_read {text : String} {document : List (String × Value)}
    (h : read? text = some document) : WellKeyed Value.KeysDistinct document := by
  obtain ⟨lines, hlines, h⟩ := Option.bind_eq_some_iff.mp h
  obtain ⟨state, hstate, h⟩ := Option.bind_eq_some_iff.mp h
  obtain ⟨entries, hentries, rfl⟩ := Option.map_eq_some_iff.mp h
  have hkeyed : state.IsKeyed := by
    refine foldlM_keeps (P := State.IsKeyed) ?_ ⟨.nil, .nil⟩ hstate
    intro line hline state state' hkeyed hadd
    exact hkeyed.add (keysDistinct_of_lines hlines line hline) hadd
  exact (hkeyed.close hentries).toEntries

end Toml

end PreferenceInjector.Settings
