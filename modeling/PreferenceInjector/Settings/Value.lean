import PreferenceInjector.Decimal.Binary64

/-!
# Values of settings

The values that a layer of settings can hold, before they are given a meaning, and the same
values with the layer they come from. Where two layers meet, tables are joined key by key and any
other value of the later layer takes the place of the earlier one, whatever their kinds.
-/

namespace PreferenceInjector.Settings

/-- A value that is neither a list nor a table. -/
inductive Scalar where
  | text (value : String)
  | flag (value : Bool)
  /-- A whole number with or without a sign. -/
  | signed (value : Int)
  /-- A whole number from a layer that tells those without a sign apart. -/
  | unsigned (value : Nat)
  | decimal (value : Binary64)
  deriving DecidableEq, Repr

/-- A value as it is written in a layer. -/
inductive Value where
  | scalar (value : Scalar)
  | list (items : List Value)
  | table (entries : List (String × Value))

/-- Where a layer was read from. -/
inductive Origin where
  /-- The values in use when nothing else is said. -/
  | defaults
  /-- A file, by its path from the working directory. -/
  | file (path : String)
  /-- The environment variables. -/
  | environment
  deriving DecidableEq, Repr

/-- A value together with the layer that it comes from. -/
inductive Setting where
  | scalar (origin : Origin) (value : Scalar)
  | list (origin : Origin) (items : List Setting)
  | table (origin : Origin) (entries : List (String × Setting))

/-- Where a setting comes from. -/
def Setting.origin : Setting → Origin
  | scalar origin _ | list origin _ | table origin _ => origin

mutual

/-- A value of a layer as a setting. -/
def Value.from (origin : Origin) : Value → Setting
  | .scalar value => .scalar origin value
  | .list items => .list origin (Value.allFrom origin items)
  | .table entries => .table origin (Value.entriesFrom origin entries)

/-- The values of a list as settings. -/
def Value.allFrom (origin : Origin) : List Value → List Setting
  | [] => []
  | value :: rest => value.from origin :: Value.allFrom origin rest

/-- The values of a table as settings. -/
def Value.entriesFrom (origin : Origin) : List (String × Value) → List (String × Setting)
  | [] => []
  | (key, value) :: rest => (key, value.from origin) :: Value.entriesFrom origin rest

end

/-- The value of a key. -/
def lookup {α : Type} (key : String) : List (String × α) → Option α
  | [] => none
  | (k, a) :: rest => if k = key then some a else lookup key rest

/-- The entries with the value of a key changed, or added after the others. -/
def upsert {α : Type} (key : String) (change : Option α → α) :
    List (String × α) → List (String × α)
  | [] => [(key, change none)]
  | (k, a) :: rest =>
    if k = key then (k, change (some a)) :: rest else (k, a) :: upsert key change rest

mutual

/-- A setting of a later layer over what the earlier layers hold under the same key. -/
def Setting.over : Setting → Option Setting → Setting
  | .table origin entries, some (.table _ earlier) =>
    .table origin (Setting.overEntries entries earlier)
  | later, _ => later

/-- The entries of a later table over those of an earlier one. -/
def Setting.overEntries :
    List (String × Setting) → List (String × Setting) → List (String × Setting)
  | [], earlier => earlier
  | (key, value) :: rest, earlier =>
    Setting.overEntries rest (upsert key (fun before => value.over before) earlier)

end

end PreferenceInjector.Settings
