import PreferenceInjector.Settings.Toml.Number

/-!
# TOML documents

The values and the tables of a document. A table is opened at most once, by its header or by
dotted keys, and a key is given a value at most once; an array of tables gets a new table with
every header. Tables that exist only because something below them was opened can still be opened
themselves, and those made by dotted keys can still get keys from further dotted keys, but not
both. A document that breaks these rules is refused, as is one that is not well formed.
-/

namespace PreferenceInjector.Settings.Toml

open Taken

/-- Keys with their values as they are written in an inline table, before dots are resolved. -/
abbrev Pairs := List (List String × Value)

/-- A table while its document is read. -/
inductive Item where
  /-- A value. -/
  | value (value : Value)
  /-- A table; `implied` when nothing opened it, `dotted` when dotted keys made it. -/
  | table (implied dotted : Bool) (entries : List (String × Item))
  /-- An array of tables, the last one first. -/
  | tables (entries : List (List (String × Item)))

/-- The entries of a table with the table below them at `path` changed; missing tables on the way
are made. Through dotted keys a path leads only into tables that nothing opened. `change` is told
whether dotted keys made the table that it changes. -/
def changeAt (dotted : Bool)
    (change : Bool → List (String × Item) → Option (List (String × Item))) :
    List String → Bool → List (String × Item) → Option (List (String × Item))
  | [], made, entries => change made entries
  | key :: path, _, entries =>
    match lookup key entries with
    | none => do
      let below ← changeAt dotted change path dotted []
      some (entries ++ [(key, .table true dotted below)])
    | some (.value _) => none
    | some (.tables []) => none
    | some (.tables (last :: earlier)) => do
      let below ← changeAt dotted change path false last
      some (upsert key (fun _ => .tables (below :: earlier)) entries)
    | some (.table implied made below) =>
      if dotted && ! implied then none
      else do
        let below ← changeAt dotted change path made below
        some (upsert key (fun _ => .table implied made below) entries)

/-- The entries of a table with one more value, whose key has not been used. Dotted keys do not
add to a table that a header opened or implied, nor plain keys to one that dotted keys made. -/
def addPair (entries : List (String × Item)) (path : List String) (key : String) (value : Item) :
    Option (List (String × Item)) :=
  changeAt true (fun made entries =>
    if made == path.isEmpty || (lookup key entries).isSome then none
    else some (entries ++ [(key, value)])) path false entries

mutual

/-- A finished table as a value. -/
def Item.toValue : Item → Value
  | .value v => v
  | .table _ _ entries => .table (Item.toEntries entries)
  | .tables all => .list (Item.toTables all).reverse

/-- The entries of a finished table. -/
def Item.toEntries : List (String × Item) → List (String × Value)
  | [] => []
  | (key, item) :: rest => (key, item.toValue) :: Item.toEntries rest

/-- The tables of a finished array. -/
def Item.toTables : List (List (String × Item)) → List Value
  | [] => []
  | entries :: rest => .table (Item.toEntries entries) :: Item.toTables rest

end

/-- The value of an inline table. -/
def tableOfPairs? (pairs : Pairs) : Option Value :=
  let entries? : Option (List (String × Item)) := pairs.foldlM (fun entries (path, value) =>
    match path.getLast? with
    | none => none
    | some key => addPair entries path.dropLast key (.value value)) []
  entries?.map fun entries => .table (Item.toEntries entries)

/-- A value among blanks, line ends and comments. -/
def takeElement (value : (s : List Char) → Taken Value s) (s : List Char) : Taken Value s :=
  (takeLayout s).andThen fun _ r _ =>
  (value r).finish fun v r₁ _ =>
  (takeLayout r₁).finish fun _ r₂ _ => Kept.done v r₂

/-- Values with commas between them, and possibly one at the end, inside brackets. -/
def takeArray (value : (s : List Char) → Taken Value s) (s : List Char) : Taken Value s :=
  (mark '[' s).andThen fun _ r _ =>
  (maybe ((takeElement value r).finish fun first r₁ _ =>
    (many (fun t => (mark ',' t).andThen fun _ t₁ _ => takeElement value t₁) r₁).finish
      fun more r₂ _ =>
    (maybe (mark ',' r₂)).finish fun _ r₃ _ => Kept.done (first :: more) r₃)).andThen
      fun items r₁ _ =>
  (takeLayout r₁).andThen fun _ r₂ _ =>
  (mark ']' r₂).as fun _ => .list (items.getD [])

/-- A key, the equals sign and a value. -/
def takePair (value : (s : List Char) → Taken Value s) (s : List Char) :
    Taken (List String × Value) s :=
  (takeKey s).andThen fun key r _ =>
  (mark '=' r).andThen fun _ r₁ _ =>
  (takeBlanks r₁).andThen fun _ r₂ _ =>
  (value r₂).as fun v => (key, v)

/-- Pairs with commas between them on one line, inside braces. -/
def takeInlineTable (value : (s : List Char) → Taken Value s) (s : List Char) : Taken Value s :=
  ((mark '\x7b' s).andThen fun _ r _ =>
    (maybe ((takePair value r).finish fun first r₁ _ =>
      (takeBlanks r₁).finish fun _ r₂ _ =>
      (many (fun t =>
        (mark ',' t).andThen fun _ t₁ _ =>
        (takePair value t₁).finish fun pair t₂ _ =>
        (takeBlanks t₂).finish fun _ t₃ _ => Kept.done pair t₃) r₂).finish fun more r₃ _ =>
      Kept.done (first :: more) r₃)).andThen fun pairs r₁ _ =>
    (takeBlanks r₁).andThen fun _ r₂ _ =>
    (mark '\x7d' r₂).as fun _ => pairs.getD []).asMaybe tableOfPairs?

/-- A value that holds less than `levels` levels of arrays and inline tables. -/
def takeValue : (levels : Nat) → (s : List Char) → Taken Value s
  | levels, s =>
    let flat : Taken Value s :=
      ((takeText s).as fun text => Value.scalar (.text text)).or fun _ =>
      ((word ['t', 'r', 'u', 'e'] s).as fun _ => Value.scalar (.flag true)).or fun _ =>
      ((word ['f', 'a', 'l', 's', 'e'] s).as fun _ => Value.scalar (.flag false)).or fun _ =>
      ((takeMoment s).as fun _ => Value.table []).or fun _ =>
      ((takeDecimal s).as fun number => Value.scalar (.decimal number)).or fun _ =>
      ((takeSpecial s).as fun number => Value.scalar (.decimal number)).or fun _ =>
      (takeInteger s).as fun number => Value.scalar (.signed number)
    match levels with
    | 0 | 1 => flat
    | levels + 1 =>
      flat.or fun _ => (takeArray (takeValue levels) s).or fun _ =>
        takeInlineTable (takeValue levels) s

/-- A line of a document. -/
inductive Line where
  | pair (path : List String) (key : String) (value : Value)
  | header (path : List String) (key : String)
  | arrayHeader (path : List String) (key : String)

/-- A key in the brackets of a header. -/
def takeHeader (s : List Char) : Taken Line s :=
  let split := fun (make : List String → String → Line) (key : List String) =>
    key.getLast?.map (make key.dropLast)
  ((word ['[', '['] s).andThen fun _ r _ =>
    ((takeKey r).asMaybe (split .arrayHeader)).andThen fun line r₁ _ =>
    (word [']', ']'] r₁).as fun _ => line).or fun _ =>
  (mark '[' s).andThen fun _ r _ =>
  ((takeKey r).asMaybe (split .header)).andThen fun line r₁ _ =>
  (mark ']' r₁).as fun _ => line

/-- The content of a line. -/
def takeLine (s : List Char) : Taken Line s :=
  (takeHeader s).or fun _ =>
    (takePair (takeValue nestingLimit) s).asMaybe fun (key, value) =>
      key.getLast?.map fun last => .pair key.dropLast last value

/-- A line without its end: blanks, content if there is any, and a comment if there is one. -/
def takeLineBody (s : List Char) : Kept (Option Line) s :=
  (takeBlanks s).finish fun _ r _ =>
  (maybe (takeLine r)).finish fun line r₁ _ =>
  (takeBlanks r₁).finish fun _ r₂ _ =>
  (maybe (takeComment r₂)).finish fun _ r₃ _ => Kept.done line r₃

/-- The lines of a document, with a line end between any two of them; lines without content are
left out. -/
def lines? (s : List Char) : Option (List Line) :=
  let ended := many (fun t => (takeLineBody t).andThen fun line t₁ _ =>
    (lineEnd t₁).as fun _ => line) s
  let last := takeLineBody ended.2.1
  if last.2.1.isEmpty then some ((ended.1 ++ [last.1]).filterMap id) else none

/-- A document while it is read: the finished tables, and the table that the last header opened,
which is missing from them, with its place. -/
structure State where
  /-- The entries of the root table without the open table. -/
  root : List (String × Item) := []
  /-- The entries of the open table. -/
  current : List (String × Item) := []
  /-- The place of the open table and whether it belongs to an array; none for the root table. -/
  place : Option (List String × String × Bool) := none

/-- The entries of the root table with the open table in its place. -/
def State.close (state : State) : Option (List (String × Item)) :=
  match state.place with
  | none => some state.current
  | some (path, key, false) =>
    changeAt false (fun _ entries =>
      match lookup key entries with
      | none => some (entries ++ [(key, .table false false state.current)])
      | some (.table true _ _) =>
        some (upsert key (fun _ => .table false false state.current) entries)
      | some _ => none) path false state.root
  | some (path, key, true) =>
    changeAt false (fun _ entries =>
      match lookup key entries with
      | none => some (entries ++ [(key, .tables [state.current])])
      | some (.tables earlier) =>
        some (upsert key (fun _ => .tables (state.current :: earlier)) entries)
      | some _ => none) path false state.root

/-- The entries of the table at a path, as far as tables lead there. -/
def entriesAt : List String → List (String × Item) → List (String × Item)
  | [], entries => entries
  | key :: path, entries =>
    match lookup key entries with
    | some (.table _ _ below) => entriesAt path below
    | some (.tables (last :: _)) => entriesAt path last
    | _ => []

/-- The document with one line more. -/
def State.add (state : State) : Line → Option State
  | .pair path key value => do
    let current ← addPair state.current path key (.value value)
    some { state with current }
  | .header path key => do
    let root ← state.close
    let root ← changeAt false (fun _ entries => some entries) path false root
    match lookup key (entriesAt path root) with
    | none => some { root, current := [], place := some (path, key, false) }
    | some (.table true false entries) => do
      let root ←
        changeAt false (fun _ entries => some (entries.filter (·.1 != key))) path false root
      some { root, current := entries, place := some (path, key, false) }
    | some _ => none
  | .arrayHeader path key => do
    let root ← state.close
    let root ← changeAt false (fun _ entries => some entries) path false root
    match lookup key (entriesAt path root) with
    | none | some (.tables _) => some { root, current := [], place := some (path, key, true) }
    | some _ => none

/-- The table that a document stands for. A byte order mark at the beginning is skipped. -/
def read? (text : String) : Option (List (String × Value)) := do
  let s := match text.toList with
    | '\ufeff' :: rest => rest
    | s => s
  let state ← (← lines? s).foldlM State.add {}
  Item.toEntries <$> state.close

end PreferenceInjector.Settings.Toml
