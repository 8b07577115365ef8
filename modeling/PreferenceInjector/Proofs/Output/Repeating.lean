import PreferenceInjector.Proofs.FileTree.Reading
import PreferenceInjector.Proofs.Output.Written

/-!
# Writing again

A write that is repeated changes nothing: the directories that hold a path are there, and the file
is replaced by one with the same content. So the second of two equal writes leaves the very tree
that the first one has left, and reports the same.
-/

namespace PreferenceInjector

namespace Node

/-- Entries stay when one of them is replaced by itself. -/
theorem alterEntry_eq_self {name : String} {change : Option Node → Option Node}
    {entries : List (String × Node)} (h : change (child? name entries) = child? name entries) :
    alterEntry name change entries = entries := by
  induction entries with
  | nil =>
    change change none = none at h
    rw [alterEntry, h]
  | cons entry rest ih =>
    obtain ⟨key, node⟩ := entry
    rw [child?] at h
    rw [alterEntry]
    by_cases hkey : key = name
    · rw [if_pos hkey] at h ⊢
      rw [h]
    · rw [if_neg hkey] at h ⊢
      rw [ih h]

/-- A tree stays when the node at a place is replaced by itself. -/
theorem alter_eq_self {root : Node} {above : Place} {name : String}
    {change : Option Node → Option Node}
    (h : change (root.at? (above ++ [name])) = root.at? (above ++ [name])) :
    root.alter change (above ++ [name]) = root := by
  induction above generalizing root with
  | nil =>
    cases root with
    | file content => rfl
    | dir held =>
      rw [List.nil_append, at?_singleton] at h
      change dir (alterEntry name change held) = dir held
      rw [alterEntry_eq_self h]
  | cons first above ih =>
    cases root with
    | file content => rfl
    | dir held =>
      rw [List.cons_append] at h ⊢
      rw [at?] at h
      rw [alter_cons, alterEntry_eq_self]
      cases hchild : child? first held with
      | none => rfl
      | some child =>
        rw [hchild, Option.bind_some] at h
        rw [Option.map_some, ih h]

end Node

namespace FileTree

variable {tree after : FileTree} {path : String} {content : ByteArray} {fromRoot : Bool}
  {segments : List String}

/-! ### Directories -/

/-- A new directory is found under its path. -/
theorem isDir_of_makeDir (h : tree.makeDir path = .ok after) : after.isDir path = true := by
  have hkept := isKeptIn_of_makeDir h
  obtain ⟨route, above, name, hroute, hnames, hfound, rfl⟩ := names_of_makeDir h
  have hnotDir : ¬ tree.HasDir (above ++ [name]) := by
    rw [hasDir_iff, hfound]
    simp
  have hsets := hnames.sets hnotDir Node.childless_empty
  have hdir : (tree.put (above ++ [name]) (.dir [])).HasDir (above ++ [name]) := by
    rw [HasDir, put, hsets.kind?, Function.update_self]
    rfl
  have hthere : (tree.put (above ++ [name]) (.dir [])).kind? (above ++ [name]) ≠ none := by
    rw [hdir]
    exact Option.some_ne_none none
  exact isDir_iff.mpr
    ⟨route, _, (hnames.of_kept hkept.hasDir hkept.cwd).leadsTo hroute hthere, hdir⟩

/-- A directory cannot be made where there is one. -/
theorem makeDir_of_isDir (h : tree.isDir path = true) :
    tree.makeDir path = .error .alreadyExists := by
  obtain ⟨route, place, ⟨hroute, hfollow⟩, hdir⟩ := isDir_iff.mp h
  -- What the path names, if anything, is the directory.
  have htarget : tree.target route = .ok .unnamed ∨
      ∃ place node, tree.target route = .ok (.name place (some node)) := by
    cases hends : route.segments.getLast? with
    | none => exact .inl (by rw [FileTree.target, hends])
    | some last =>
      rw [← List.dropLast_append_getLast? last hends, follow_concat_eq_ok] at hfollow
      obtain ⟨above, hleads, hstep⟩ := hfollow
      obtain ⟨habove, hplace, hthere⟩ := step_eq_ok_iff.mp hstep
      obtain ⟨entries, hentries⟩ := hasDir_iff.mp habove
      by_cases hdots : last = "." ∨ last = ".."
      · left
        rw [FileTree.target, hends]
        simp only [hleads]
        simp [bind, Except.bind, hentries, hdots]
      · obtain ⟨hhere, hup⟩ := not_or.mp hdots
        obtain ⟨hshort, hsome⟩ := (hthere.resolve_left hhere).resolve_left hup
        have hnames : tree.Names route above last := ⟨hends, hleads, habove, hhere, hup, hshort⟩
        obtain ⟨node, hnode⟩ := Option.isSome_iff_exists.mp (kind?_ne_none_iff.mp hsome)
        exact .inr ⟨above ++ [last], node, by rw [hnames.target, hnode]⟩
  rw [makeDir, hroute]
  rcases htarget with htarget | ⟨place, node, htarget⟩
  · change tree.target route >>= _ = _
    rw [htarget]
    rfl
  · change tree.target route >>= _ = _
    rw [htarget]
    rfl

/-- There is a directory with the given segments, last one first, if there are any. -/
def HasDirs (tree : FileTree) (fromRoot : Bool) (segments : List String) : Prop :=
  segments = [] ∨ tree.isDir (pathText fromRoot segments.reverse) = true

/-- Directories stay. -/
theorem HasDirs.of_kept (h : tree.HasDirs fromRoot segments) (hkept : tree.IsKeptIn after) :
    after.HasDirs fromRoot segments :=
  h.imp_right hkept.isDir

/-- Directories that can be made with all directories above them are there. -/
theorem hasDirs_of_makeDirs (h : tree.makeDirs fromRoot segments = (after, none)) :
    after.HasDirs fromRoot segments := by
  cases segments with
  | nil => exact .inl rfl
  | cons last above =>
    right
    have hsettle : ∀ {tree : FileTree} {fault : Fault},
        (tree, if tree.isDir (pathText fromRoot (last :: above).reverse) then none
          else some fault) = (after, none) →
        after.isDir (pathText fromRoot (last :: above).reverse) = true := by
      intro tree fault h
      obtain ⟨rfl, hdir⟩ := Prod.mk.inj h
      split_ifs at hdir with hthere
      exact hthere
    rw [makeDirs] at h
    cases hmake : tree.makeDir (pathText fromRoot (last :: above).reverse) with
    | ok made =>
      simp only [hmake] at h
      cases h
      exact isDir_of_makeDir hmake
    | error fault =>
      simp only [hmake] at h
      cases fault with
      | notFound =>
        simp only at h
        rcases hmade : tree.makeDirs fromRoot above with ⟨made, _ | fault⟩
        · simp only [hmade] at h
          cases hagain : made.makeDir (pathText fromRoot (last :: above).reverse) with
          | ok between =>
            simp only [hagain] at h
            cases h
            exact isDir_of_makeDir hagain
          | error fault =>
            simp only [hagain] at h
            exact hsettle h
        · simp only [hmade] at h
          cases h
      | _ => exact hsettle h

/-- Directories that are there need not be made. -/
theorem HasDirs.makeDirs (h : tree.HasDirs fromRoot segments) :
    tree.makeDirs fromRoot segments = (tree, none) := by
  cases segments with
  | nil => rfl
  | cons last above =>
    have hdir := h.resolve_left (List.cons_ne_nil last above)
    rw [FileTree.makeDirs, makeDir_of_isDir hdir]
    simp only [hdir, if_true]

/-! ### Files -/

/-- A file stays when it is replaced by one with the same content. -/
theorem Reaches.write (h : tree.Reaches path)
    (hcontent : tree.content? (placeOf tree.cwd path) = some content) :
    tree.write path content = .ok tree := by
  obtain ⟨route, above, name, hroute, hfile, hnames⟩ := h
  rw [← hnames.place_eq hroute, content?_eq_some_iff] at hcontent
  have htarget := hnames.target
  rw [hcontent] at htarget
  rw [FileTree.write, hroute]
  change tree.target route >>= _ = _
  rw [htarget]
  change (if route.toDirectory then _ else _) = _
  rw [hfile, if_neg Bool.false_ne_true, put, Node.alter_eq_self hcontent.symm]

/-- A file with the given content stands under the path, in the directories that hold it. -/
structure Stands (tree : FileTree) (path : String) (content : ByteArray) : Prop where
  dirs : tree.HasDirs (path.toList.head? == some '/') (pathSegments path).dropLast.reverse
  reaches : tree.Reaches path
  content : tree.content? (placeOf tree.cwd path) = some content

/-- A file that stands under its path can be written again, which changes nothing. -/
theorem Stands.writeWithDirs (h : tree.Stands path content) :
    Disk.writeWithDirs tree path content = (tree, none) := by
  have hparents : Disk.makeParents tree path = (tree, none) := h.dirs.makeDirs
  have hwrite : Disk.write tree path content = .ok tree := h.reaches.write h.content
  rw [Disk.writeWithDirs, hparents]
  simp only [hwrite]

/-- What stands under paths is kept when the directories that hold another path are made. -/
theorem isKeptIn_makeParents (tree : FileTree) (path : String) :
    tree.IsKeptIn (tree.makeParents path).1 :=
  makeDirs_induction IsKeptIn.refl (fun _ _ _ => IsKeptIn.trans) _ _
    (fun _ _ _ _ => isKeptIn_of_makeDir) tree

/-- A file that is written leaves something in every place. -/
theorem isKeptIn_of_writeWithDirs (h : Disk.writeWithDirs tree path content = (after, none)) :
    tree.IsKeptIn after :=
  (isKeptIn_makeParents tree path).trans
    (isKeptIn_of_write (LawfulDisk.write_of_writeWithDirs h))

/-- A file that is written has the directories that hold it. -/
theorem hasDirs_of_writeWithDirs (h : Disk.writeWithDirs tree path content = (after, none)) :
    after.HasDirs (path.toList.head? == some '/') (pathSegments path).dropLast.reverse := by
  have hwrite := isKeptIn_of_write (LawfulDisk.write_of_writeWithDirs h)
  rcases hmade : Disk.makeParents tree path with ⟨made, _ | fault⟩
  · rw [hmade] at hwrite
    exact (hasDirs_of_makeDirs hmade).of_kept hwrite
  · rw [Disk.writeWithDirs, hmade] at h
    cases h

/-! ### Several files -/

variable {sources : List (String × String)} {written paths : List String}

/-- Files that are written in turn leave something in every place. -/
theorem isKeptIn_of_writtenInTurn (h : WrittenInTurn tree sources after) : tree.IsKeptIn after := by
  induction h with
  | nil tree => exact IsKeptIn.refl tree
  | cons hwrite _ ih => exact (isKeptIn_of_writeWithDirs hwrite).trans ih

/-- Files that are written in turn have the directories that hold them. -/
theorem hasDirs_of_writtenInTurn (h : WrittenInTurn tree sources after) :
    ∀ source ∈ sources, after.HasDirs
      (source.1.toList.head? == some '/') (pathSegments source.1).dropLast.reverse := by
  induction h with
  | nil tree => exact List.forall_mem_nil _
  | cons hwrite hsources ih =>
    refine List.forall_mem_cons.mpr ⟨?_, ih⟩
    exact (hasDirs_of_writeWithDirs hwrite).of_kept (isKeptIn_of_writtenInTurn hsources)

/-- All files that are written in turn stand under their paths, unless two of them lead to one
place. -/
theorem stands_of_writtenInTurn (h : WrittenInTurn tree sources after)
    (hnodup : (sources.map (placeOf tree.cwd ·.1)).Nodup) :
    ∀ source ∈ sources, after.Stands source.1 source.2.toUTF8 := by
  intro source hsource
  have hwritten := h.hasWritten
  refine ⟨hasDirs_of_writtenInTurn h source hsource, hwritten.written source hsource, ?_⟩
  rw [(isKeptIn_of_writtenInTurn h).cwd]
  exact hwritten.texts hnodup source hsource

/-- Files that stand under their paths can be written again, which changes nothing. -/
theorem writtenInTurn_of_stands (h : ∀ source ∈ sources, tree.Stands source.1 source.2.toUTF8) :
    WrittenInTurn tree sources tree := by
  induction sources with
  | nil => exact .nil tree
  | cons source sources ih =>
    obtain ⟨hpath, hothers⟩ := List.forall_mem_cons.mp h
    exact .cons hpath.writeWithDirs (ih hothers)

/-- A write of several files that succeeds does the same when it is repeated, and leaves the tree as
it then is, unless two of the files lead to one place. -/
theorem writeAll_again (h : (writeAll tree written sources).2.outcome = .ok paths)
    (hnodup : (sources.map (placeOf tree.cwd ·.1)).Nodup) :
    writeAll (writeAll tree written sources).1 written sources = writeAll tree written sources := by
  have hstands := stands_of_writtenInTurn (writtenInTurn_of_writeAll h) hnodup
  rw [(writtenInTurn_of_stands hstands).writeAll_eq, ← writeAll_eq_of_ok h]

end FileTree

end PreferenceInjector
