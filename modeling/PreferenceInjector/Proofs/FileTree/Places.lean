import Mathlib.Logic.Function.Basic
import PreferenceInjector.FileTree.Basic

/-!
# What stands at the places of a tree

A tree as a function from places: at each there is a file with its content, a directory, or nothing.
A change at a place where nothing lies below, neither before nor after, leaves what every other
place holds.
-/

namespace PreferenceInjector

namespace Node

/-- The content of a file, or that a node is a directory. -/
def label : Node → Option ByteArray
  | file content => some content
  | dir _ => none

/-- What stands at a place: nothing, a directory or a file with its content. -/
def kind? (root : Node) (place : Place) : Option (Option ByteArray) := (root.at? place).map label

/-! ### Entries -/

/-- Other entries stay when the ones of a name are taken away. -/
theorem child?_filter (name other : String) (entries : List (String × Node)) :
    child? other (entries.filter (·.1 != name)) =
      if name = other then none else child? other entries := by
  induction entries with
  | nil => simp [child?]
  | cons entry entries ih =>
    obtain ⟨key, node⟩ := entry
    by_cases hkey : key = name
    · subst hkey
      by_cases hother : key = other
      · simpa [child?, hother] using ih
      · simpa [child?, hother] using ih
    · by_cases hother : key = other
      · subst hother
        simp [child?, hkey, Ne.symm hkey]
      · simpa [child?, hkey, hother] using ih

/-- Changing the entry of one name leaves the others alone. -/
theorem child?_alterEntry (name other : String) (change : Option Node → Option Node)
    (entries : List (String × Node)) :
    child? other (alterEntry name change entries) =
      if name = other then change (child? name entries) else child? other entries := by
  induction entries with
  | nil =>
    rw [alterEntry]
    cases hnew : change none with
    | none => by_cases hother : name = other <;> simp [child?, hnew, hother]
    | some node => by_cases hother : name = other <;> simp [child?, hnew, hother]
  | cons entry entries ih =>
    obtain ⟨key, node⟩ := entry
    rw [alterEntry]
    by_cases hkey : key = name
    · subst hkey
      rw [if_pos rfl]
      cases hnew : change (some node) with
      | none =>
        change child? other (entries.filter (·.1 != key)) = _
        rw [child?_filter]
        by_cases hother : key = other <;> simp [child?, hnew, hother]
      | some changed => by_cases hother : key = other <;> simp [child?, hnew, hother]
    · rw [if_neg hkey]
      by_cases hother : key = other
      · subst hother
        simp [child?, Ne.symm hkey]
      · simp [child?, hkey, hother, ih]

/-! ### Places -/

/-- The nodes right below a directory are those of its entries. -/
theorem at?_singleton (name : String) (entries : List (String × Node)) :
    (dir entries).at? [name] = child? name entries := by
  rw [at?]
  cases child? name entries with
  | none => rfl
  | some child => rfl

/-- A place below another one. -/
theorem at?_append (root : Node) (place below : Place) :
    root.at? (place ++ below) = (root.at? place).bind (·.at? below) := by
  induction place generalizing root with
  | nil => rw [List.nil_append, at?, Option.bind_some]
  | cons name names ih =>
    cases root with
    | file content => rfl
    | dir entries =>
      rw [List.cons_append, at?, at?]
      cases child? name entries with
      | none => rfl
      | some child => exact ih child

/-- No node stands below. -/
def Childless (node : Option Node) : Prop :=
  ∀ name names, node.bind (·.at? (name :: names)) = none

@[simp] theorem childless_none : Childless none := fun _ _ => rfl

@[simp] theorem childless_file (content : ByteArray) : Childless (some (file content)) :=
  fun _ _ => rfl

@[simp] theorem childless_empty : Childless (some (dir [])) := fun _ _ => rfl

/-- The nodes at a name and below it, after a change of the entry of a name. -/
theorem at?_alterEntry (name other : String) (change : Option Node → Option Node)
    (entries : List (String × Node)) (below : Place) :
    (dir (alterEntry name change entries)).at? (other :: below) =
      if name = other then (change (child? name entries)).bind (·.at? below)
      else (dir entries).at? (other :: below) := by
  rw [at?, child?_alterEntry]
  by_cases hother : name = other
  · simp [hother]
  · simp [hother, at?]

/-- A change deeper down is a change of the entry that leads there. -/
theorem alter_cons (change : Option Node → Option Node) (first : String) (above : Place)
    (name : String) (entries : List (String × Node)) :
    (dir entries).alter change (first :: (above ++ [name])) =
      dir (alterEntry first (·.map (alter change (above ++ [name]))) entries) := by
  cases above <;> rfl

/-- A change at a place below which nothing stands, before or after, is a change at that place
only. -/
theorem kind?_alter {root : Node} {above : Place} {name : String}
    {change : Option Node → Option Node} (habove : ∃ entries, root.at? above = some (dir entries))
    (hbefore : Childless (root.at? (above ++ [name])))
    (hafter : Childless (change (root.at? (above ++ [name])))) :
    (root.alter change (above ++ [name])).kind? =
      Function.update root.kind? (above ++ [name])
        ((change (root.at? (above ++ [name]))).map label) := by
  obtain ⟨held, hheld⟩ := habove
  funext place
  induction above generalizing root place with
  | nil =>
    cases hheld
    rw [List.nil_append, at?_singleton] at hbefore hafter ⊢
    cases place with
    | nil => rfl
    | cons other below =>
      change ((dir (alterEntry name change held)).at? (other :: below)).map label = _
      rw [at?_alterEntry]
      by_cases hother : name = other
      · subst hother
        rw [if_pos rfl]
        cases below with
        | nil => simp [at?]
        | cons second below =>
          have hnone : (dir held).kind? (name :: second :: below) = none := by
            rw [kind?, at?, hbefore, Option.map_none]
          rw [hafter, Function.update_of_ne (by simp), hnone, Option.map_none]
      · rw [if_neg hother, Function.update_of_ne (by simp [Ne.symm hother])]
        rfl
  | cons first above ih =>
    cases root with
    | file content => cases hheld
    | dir entries =>
      rw [at?] at hheld
      obtain ⟨child, hchild, hheld⟩ := Option.bind_eq_some_iff.mp hheld
      have hdeeper : ∀ below, (dir entries).at? (first :: below) = child.at? below := by
        intro below
        rw [at?, hchild, Option.bind_some]
      rw [List.cons_append, hdeeper] at hbefore hafter ⊢
      rw [alter_cons]
      cases place with
      | nil => rfl
      | cons other below =>
        rw [kind?, at?_alterEntry]
        by_cases hother : first = other
        · subst hother
          rw [if_pos rfl, hchild, Option.map_some, Option.bind_some]
          change (child.alter change (above ++ [name])).kind? below = _
          rw [ih hbefore hafter hheld]
          by_cases hbelow : below = above ++ [name]
          · rw [hbelow, Function.update_self, Function.update_self]
          · rw [Function.update_of_ne hbelow, Function.update_of_ne (by simpa using hbelow), kind?,
              kind?, hdeeper]
        · rw [if_neg hother, Function.update_of_ne (by simp [Ne.symm hother])]
          rfl

end Node

namespace FileTree

variable {tree : FileTree} {place : Place}

/-- What stands at a place of a tree. -/
def kind? (tree : FileTree) (place : Place) : Option (Option ByteArray) := tree.root.kind? place

/-- The content of the file at a place. -/
def content? (tree : FileTree) (place : Place) : Option ByteArray := (tree.kind? place).join

/-- There is a directory at a place. -/
def HasDir (tree : FileTree) (place : Place) : Prop := tree.kind? place = some none

/-- There is a directory at a place when it has entries there. -/
theorem hasDir_iff : tree.HasDir place ↔ ∃ entries, tree.root.at? place = some (.dir entries) := by
  rw [HasDir, kind?, Node.kind?]
  cases tree.root.at? place with
  | none => simp
  | some node => cases node <;> simp [Node.label]

/-- What stands below a directory is its entry. -/
theorem at?_append_of_dir {entries : List (String × Node)} {name : String}
    (h : tree.root.at? place = some (.dir entries)) :
    tree.root.at? (place ++ [name]) = Node.child? name entries := by
  rw [Node.at?_append, h, Option.bind_some, Node.at?]
  cases Node.child? name entries <;> rfl

end FileTree

end PreferenceInjector
