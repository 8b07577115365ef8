import PreferenceInjector.FileTree.Basic

/-!
# Disks

What the writing of source files needs of a file system. Its operations can fail for reasons that a
tree of directories and files does not show, such as a missing permission or a lack of space, so the
type of its states is left open. A tree is a disk whose operations fail only for what is in it.
-/

namespace PreferenceInjector

/-- A file system with states of a given type. -/
class Disk (σ : Type) where
  /-- Makes the directories that hold a path. Those made before a fault stay. -/
  makeParents : σ → String → σ × Option Fault
  /-- Writes a file, replacing the content of an earlier one. -/
  write : σ → String → ByteArray → Except Fault σ
  /-- Removes a file. -/
  remove : σ → String → Except Fault σ

instance : Disk FileTree where
  makeParents := FileTree.makeParents
  write := FileTree.write
  remove := FileTree.remove

/-- The disk with a file at a path, and with the directories that hold it. -/
def Disk.writeWithDirs {σ : Type} [Disk σ] (disk : σ) (path : String) (content : ByteArray) :
    σ × Option Fault :=
  match makeParents disk path with
  | (made, some fault) => (made, some fault)
  | (made, none) =>
    match write made path content with
    | .ok written => (written, none)
    | .error fault => (made, some fault)

end PreferenceInjector
