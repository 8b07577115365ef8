import PreferenceInjector.FileTree.Disk
import PreferenceInjector.Proofs.FileTree.Operations

/-!
# Lawful disks

What can be relied on when source files are written: making directories changes no file, a file is
written whole or not at all, and a file that was written can be removed again. Any of the operations
may fail for reasons that are not known. A tree of directories and files is such a disk.
-/

namespace PreferenceInjector

/-- A disk that holds a tree. The laws leave open when an operation fails, except that a file under
a path that was written can be removed. -/
class LawfulDisk (σ : Type) extends Disk σ where
  /-- The directories and files on the disk. -/
  tree : σ → FileTree
  /-- A file has been written under a path. -/
  Written : σ → String → Prop
  /-- Making directories leaves the working directory. -/
  cwd_makeParents : ∀ disk path, (tree (makeParents disk path).1).cwd = (tree disk).cwd
  /-- Making directories leaves all files. -/
  content?_makeParents : ∀ disk path,
    (tree (makeParents disk path).1).content? = (tree disk).content?
  /-- Making directories leaves what can be removed. -/
  written_makeParents : ∀ disk path other, Written disk other →
    Written (makeParents disk path).1 other
  /-- Writing leaves the working directory. -/
  cwd_write : ∀ disk path content after, write disk path content = .ok after →
    (tree after).cwd = (tree disk).cwd
  /-- Writing puts the content at the place of the path, and leaves all other files. -/
  content?_write : ∀ disk path content after, write disk path content = .ok after →
    (tree after).content? =
      Function.update (tree disk).content? (placeOf (tree disk).cwd path) (some content)
  /-- What is written can be removed, beside what could be removed before. -/
  written_write : ∀ disk path content after other, write disk path content = .ok after →
    other = path ∨ Written disk other → Written after other
  /-- Removing leaves the working directory. -/
  cwd_remove : ∀ disk path after, remove disk path = .ok after →
    (tree after).cwd = (tree disk).cwd
  /-- Removing takes away the file at the place of the path, and leaves all other files. -/
  content?_remove : ∀ disk path after, remove disk path = .ok after →
    (tree after).content? =
      Function.update (tree disk).content? (placeOf (tree disk).cwd path) none
  /-- Removing leaves what else can be removed. -/
  written_remove : ∀ disk path after other, remove disk path = .ok after →
    Written disk other → Written after other
  /-- A file under a path that was written can be removed. -/
  exists_remove : ∀ disk path, Written disk path →
    (tree disk).content? (placeOf (tree disk).cwd path) ≠ none →
      ∃ after, remove disk path = .ok after

instance : LawfulDisk FileTree where
  tree := id
  Written := FileTree.Reaches
  cwd_makeParents tree path := (FileTree.grows_makeDirs tree _ _).cwd
  content?_makeParents tree path := (FileTree.grows_makeDirs tree _ _).content?
  written_makeParents tree path other h :=
    h.of_kept (FileTree.grows_makeDirs tree _ _).hasDir (FileTree.grows_makeDirs tree _ _).cwd
  cwd_write tree path content after h := (FileTree.write_eq_ok h).1.cwd
  content?_write tree path content after h := (FileTree.write_eq_ok h).1.content?
  written_write tree path content after other h hother := by
    obtain ⟨hsets, hreaches⟩ := FileTree.write_eq_ok h
    rcases hother with rfl | hother
    · exact hreaches
    · exact hother.of_kept (fun _ => hsets.hasDir) hsets.cwd
  cwd_remove tree path after h := (FileTree.remove_eq_ok h).cwd
  content?_remove tree path after h := (FileTree.remove_eq_ok h).content?
  written_remove tree path after other h hother :=
    hother.of_kept (fun _ => (FileTree.remove_eq_ok h).hasDir) (FileTree.remove_eq_ok h).cwd
  exists_remove tree path h hfile := h.exists_remove hfile

namespace LawfulDisk

variable {σ : Type} [LawfulDisk σ]

/-- The content of the file at a place. -/
def content? (disk : σ) : Place → Option ByteArray := (tree disk).content?

/-- The place that a path leads to. -/
def leadsTo (disk : σ) (path : String) : Place := placeOf (tree disk).cwd path

/-- Later on a path leads to the same place, and what could be removed still can. -/
structure Follows (disk after : σ) : Prop where
  leadsTo : leadsTo after = leadsTo disk
  written : ∀ path, Written disk path → Written after path

/-- A disk after one that follows another follows it. -/
theorem Follows.trans {disk between after : σ} (h : Follows disk between)
    (h' : Follows between after) : Follows disk after :=
  ⟨h'.leadsTo.trans h.leadsTo, fun path hpath => h'.written path (h.written path hpath)⟩

variable {disk after : σ} {path : String} {content : ByteArray} {fault : Fault}

/-- Making directories comes before what follows. -/
theorem follows_makeParents (disk : σ) (path : String) :
    Follows disk (Disk.makeParents disk path).1 where
  leadsTo := by
    funext other
    rw [leadsTo, cwd_makeParents, leadsTo]
  written := written_makeParents disk path

/-- Writing comes before what follows. -/
theorem follows_write (h : Disk.write disk path content = .ok after) : Follows disk after where
  leadsTo := by
    funext other
    rw [leadsTo, cwd_write disk path content after h, leadsTo]
  written other hother := written_write disk path content after other h (Or.inr hother)

/-- Removing comes before what follows. -/
theorem follows_remove (h : Disk.remove disk path = .ok after) : Follows disk after where
  leadsTo := by
    funext other
    rw [leadsTo, cwd_remove disk path after h, leadsTo]
  written other := written_remove disk path after other h

/-- A file is written after the directories that hold it are made. -/
theorem write_of_writeWithDirs (h : Disk.writeWithDirs disk path content = (after, none)) :
    Disk.write (Disk.makeParents disk path).1 path content = .ok after := by
  rw [Disk.writeWithDirs] at h
  rcases hparents : Disk.makeParents disk path with ⟨made, _ | fault⟩
  · simp only [hparents] at h
    cases hwrite : Disk.write made path content with
    | ok written =>
      simp only [hwrite] at h
      cases h
      rfl
    | error fault =>
      simp only [hwrite] at h
      cases h
  · simp only [hparents] at h
    cases h

/-- Of a file that is not written at most the directories are made. -/
theorem eq_makeParents_of_fault
    (h : Disk.writeWithDirs disk path content = (after, some fault)) :
    after = (Disk.makeParents disk path).1 := by
  rw [Disk.writeWithDirs] at h
  rcases hparents : Disk.makeParents disk path with ⟨made, _ | found⟩
  · simp only [hparents] at h
    cases hwrite : Disk.write made path content with
    | ok written =>
      simp only [hwrite] at h
      cases h
    | error found =>
      simp only [hwrite] at h
      cases h
      rfl
  · simp only [hparents] at h
    cases h
    rfl

/-- A file that is written stands at its place, and can be removed. -/
theorem writeWithDirs_eq_ok (h : Disk.writeWithDirs disk path content = (after, none)) :
    Follows disk after ∧ Written after path ∧
      content? after = Function.update (content? disk) (leadsTo disk path) (some content) := by
  have hmade := follows_makeParents disk path
  have hwrite := write_of_writeWithDirs h
  refine ⟨hmade.trans (follows_write hwrite),
    written_write _ path content after path hwrite (Or.inl rfl), ?_⟩
  have hplace : leadsTo (Disk.makeParents disk path).1 path = leadsTo disk path :=
    congrFun hmade.leadsTo path
  rw [← hplace, content?, content?_write _ path content after hwrite, content?,
    content?_makeParents disk path]
  rfl

/-- A file that is not written leaves all files as they are. -/
theorem writeWithDirs_eq_fault (h : Disk.writeWithDirs disk path content = (after, some fault)) :
    Follows disk after ∧ content? after = content? disk := by
  rw [eq_makeParents_of_fault h]
  exact ⟨follows_makeParents disk path, content?_makeParents disk path⟩

end LawfulDisk

end PreferenceInjector
