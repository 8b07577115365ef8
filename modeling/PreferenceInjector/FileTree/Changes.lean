import PreferenceInjector.FileTree.Basic

/-!
# Differences between trees

What has to be done to one tree of directories and files to get another: the files that are new
or have a new content, the directories that are new, and what is gone.
-/

namespace PreferenceInjector

/-- The difference between two trees, each list in the order of the path texts. -/
structure Changes where
  /-- New files and files with a new content. -/
  files : List (String × ByteArray)
  /-- New directories. -/
  dirs : List String
  /-- Paths at which nothing is left. -/
  removed : List String

/-- The difference that turns `before` into `after`. -/
def Changes.between (before after : Node) : Changes :=
  let old := before.places
  let new := after.places
  let text := fun (place : Place) => pathText false place
  let sorted := fun (paths : List String) => paths.mergeSort fun a b => decide (a ≤ b)
  { files :=
      (new.filterMap fun (place, node) =>
        match node, before.at? place with
        | .file content, some (.file earlier) =>
          if content == earlier then none else some (text place, content)
        | .file content, _ => some (text place, content)
        | .dir _, _ => none).mergeSort fun a b => decide (a.1 ≤ b.1)
    dirs := sorted <| new.filterMap fun (place, node) =>
      match node, before.at? place with
      | .dir _, some (.dir _) => none
      | .dir _, _ => some (text place)
      | .file _, _ => none
    removed := sorted <| old.filterMap fun (place, _) =>
      match after.at? place with
      | some _ => none
      | none => some (text place) }

end PreferenceInjector
