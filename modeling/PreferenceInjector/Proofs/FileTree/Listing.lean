import Mathlib.Data.List.TakeWhile
import PreferenceInjector.Output
import PreferenceInjector.Proofs.FileTree.Reading
import PreferenceInjector.Proofs.Output.Written
import PreferenceInjector.Scan

/-!
# What a scan sees

A scan sees directories, and the files whose name has its extension. New directories and files with
another extension change nothing for it, whatever they are put into: the same paths are listed in
the same order, and the files under them are read as before. There is one exception: a new directory
that lies too deep to be searched is listed like a file when its name has the extension. So what
stays the same are the listed paths that are not too long, and a scan that lists no other ones has
the same result.
-/

namespace PreferenceInjector

/-! ### Names with an extension -/

/-- The end of a text with a dot in it has the same simple name. -/
theorem simpleName_of_suffix {text ending : String} (h : ending.toList <:+ text.toList)
    (hdot : '.' ∈ ending.toList) : simpleName text = simpleName ending := by
  obtain ⟨before, hbefore⟩ := h
  have hstop : ¬ ((ending.toList.reverse.takeWhile (· != '.')).length =
      ending.toList.reverse.length) := by
    intro hall
    have hwhole := (List.takeWhile_prefix (· != '.')).eq_of_length hall
    have hkept := List.mem_takeWhile_imp (hwhole.symm ▸ List.mem_reverse.mpr hdot)
    simp at hkept
  rw [simpleName, simpleName, ← hbefore, List.reverse_append, List.takeWhile_append, if_neg hstop]

/-- An extension is what follows the last dot. -/
theorem simpleName_of_extension? {name extension : String} (h : extension? name = some extension) :
    '.' ∈ name.toList ∧ simpleName name = extension := by
  rw [extension?] at h
  split at h
  · cases h
  simp only at h
  split at h
  · next hlong =>
    refine ⟨?_, Option.some_inj.mp h⟩
    by_contra hdot
    have hall : name.toList.reverse.takeWhile (· != '.') = name.toList.reverse := by
      rw [List.takeWhile_eq_self_iff]
      intro c hc
      rw [bne_iff_ne]
      rintro rfl
      exact hdot (List.mem_reverse.mp hc)
    rw [hall, List.reverse_reverse, String.length_toList] at hlong
    omega
  · cases h

/-- A path ends in the segment that is joined to it. -/
theorem suffix_joinPath (path segment : String) :
    segment.toList <:+ (joinPath path segment).toList := by
  rw [joinPath]
  split
  · exact List.suffix_refl _
  · split
    · exact ⟨path.toList, String.toList_append.symm⟩
    · exact ⟨path.toList, String.toList_append.symm⟩
    · exact ⟨(path ++ "/").toList, String.toList_append.symm⟩

namespace Node

variable {isDir : String → Bool} {extension path name : String}

/-! ### Entries -/

/-- A name on its own leads to a file when it has the extension. -/
theorem mem_named {names : List String} :
    names ∈ named extension name ↔ names = [name] ∧ extension? name = some extension := by
  rw [named]
  split_ifs with hextension
  · simp [hextension]
  · simp [hextension]

mutual

/-- The names that are found end in one with the extension. -/
theorem exists_last_of_withExtension (path name : String) : ∀ (node : Node),
    ∀ names ∈ withExtension isDir extension path name node,
      ∃ above last, names = above ++ [last] ∧ extension? last = some extension
  | .file _, names, hmem => by
    rw [withExtension] at hmem
    exact ⟨[], name, mem_named.mp hmem⟩
  | .dir entries, names, hmem => by
    rw [withExtension] at hmem
    split_ifs at hmem
    · obtain ⟨below, hbelow, rfl⟩ := List.mem_map.mp hmem
      obtain ⟨above, last, rfl, hextension⟩ := exists_last_of_entries _ entries below hbelow
      exact ⟨name :: above, last, rfl, hextension⟩
    · exact ⟨[], name, mem_named.mp hmem⟩

/-- The names that are found among entries end in one with the extension. -/
theorem exists_last_of_entries (path : String) : ∀ (entries : List (String × Node)),
    ∀ names ∈ entriesWithExtension isDir extension path entries,
      ∃ above last, names = above ++ [last] ∧ extension? last = some extension
  | [], names, hmem => by
    rw [entriesWithExtension] at hmem
    cases hmem
  | (name, node) :: rest, names, hmem => by
    rw [entriesWithExtension] at hmem
    rcases List.mem_append.mp hmem with hhere | hrest
    · exact exists_last_of_withExtension path name node names hhere
    · exact exists_last_of_entries path rest names hrest

end

/-- The found names whose paths from a directory are kept. -/
def kept (keep : String → Bool) (path : String) (found : List (List String)) :
    List (List String) :=
  found.filter fun names => keep (names.foldl joinPath path)

variable {keep : String → Bool}

/-- What is found in a directory is kept when it is kept from the directory above it. -/
theorem kept_map_cons (path name : String) (found : List (List String)) :
    kept keep path (found.map (name :: ·)) =
      (kept keep (joinPath path name) found).map (name :: ·) := by
  rw [kept, List.filter_map]
  rfl

/-- What is kept of the files with an extension at and below what stands under a name. -/
def found (keep : String → Bool) (extension path name : String) (node : Option Node) :
    List (List String) :=
  kept keep path ((node.map (withExtension isShort extension path name)).getD [])

/-- A file that has another extension is not found. -/
theorem found_file (hname : extension? name ≠ some extension) (content : ByteArray) :
    found keep extension path name (some (file content)) = [] := by
  change kept keep path (withExtension isShort extension path name (file content)) = []
  rw [withExtension, named, if_neg hname]
  rfl

/-- What is found in a directory is what it holds, if it is searched, and otherwise its name. -/
theorem found_dir (entries : List (String × Node)) :
    found keep extension path name (some (dir entries)) =
      if isShort (joinPath path name) then
        (kept keep (joinPath path name)
          (entriesWithExtension isShort extension (joinPath path name) entries)).map (name :: ·)
      else kept keep path (named extension name) := by
  change kept keep path (withExtension isShort extension path name (dir entries)) = _
  rw [withExtension]
  split_ifs
  · exact kept_map_cons path name _
  · rfl

/-- A new directory is not found if no paths are kept that are too long, or if it has another
extension. -/
theorem found_dir_nil
    (h : (∀ path, keep path = true → isShort path = true) ∨ extension? name ≠ some extension) :
    found keep extension path name (some (dir [])) = [] := by
  rw [found_dir, entriesWithExtension]
  split_ifs with hshort
  · rfl
  · rw [kept, List.filter_eq_nil_iff]
    intro names hnames hkeep
    obtain ⟨rfl, hname⟩ := mem_named.mp hnames
    exact h.elim (fun hkept => hshort (hkept _ hkeep)) (fun hother => hother hname)

/-- The same is found among entries when the same is found under the name that changes. -/
theorem kept_alterEntry {change : Option Node → Option Node} {entries : List (String × Node)}
    (hstays : (child? name entries).isSome = true → (change (child? name entries)).isSome = true)
    (hfound : found keep extension path name (change (child? name entries)) =
      found keep extension path name (child? name entries)) :
    kept keep path (entriesWithExtension isShort extension path (alterEntry name change entries)) =
      kept keep path (entriesWithExtension isShort extension path entries) := by
  induction entries with
  | nil =>
    rw [alterEntry]
    change found keep extension path name (change none) = [] at hfound
    cases hnew : change none with
    | none => rfl
    | some node =>
      rw [hnew] at hfound
      change kept keep path (withExtension isShort extension path name node ++ []) = []
      rw [List.append_nil]
      exact hfound
  | cons entry rest ih =>
    obtain ⟨key, node⟩ := entry
    rw [alterEntry]
    rw [child?] at hstays hfound
    by_cases hkey : key = name
    · subst hkey
      rw [if_pos rfl] at hstays hfound
      obtain ⟨changed, hchanged⟩ := Option.isSome_iff_exists.mp (hstays rfl)
      rw [hchanged] at hfound
      rw [if_pos rfl, hchanged, entriesWithExtension, entriesWithExtension, kept, kept,
        List.filter_append, List.filter_append]
      exact congrArg (· ++ kept keep path (entriesWithExtension isShort extension path rest)) hfound
    · rw [if_neg hkey] at hstays hfound ⊢
      have hrest := ih hstays hfound
      rw [kept, kept] at hrest
      rw [entriesWithExtension, entriesWithExtension, kept, kept, List.filter_append,
        List.filter_append, hrest]

/-! ### Trees -/

/-- Every directory is still one, and the same with an extension is kept of what is found in it,
whatever the path that leads to the directory. -/
def Alike (keep : String → Bool) (extension : String) (node other : Node) : Prop :=
  ∀ place entries, node.at? place = some (dir entries) → ∃ others,
    other.at? place = some (dir others) ∧ ∀ path,
      kept keep path (entriesWithExtension isShort extension path others) =
        kept keep path (entriesWithExtension isShort extension path entries)

/-- A node is alike to itself. -/
theorem Alike.refl (keep : String → Bool) (extension : String) (node : Node) :
    Alike keep extension node node :=
  fun _ entries h => ⟨entries, h, fun _ => rfl⟩

/-- What is alike stays so further on. -/
theorem Alike.trans {node between other : Node} (h : Alike keep extension node between)
    (h' : Alike keep extension between other) : Alike keep extension node other := by
  intro place entries hentries
  obtain ⟨others, hothers, hsame⟩ := h place entries hentries
  obtain ⟨last, hlast, hsame'⟩ := h' place others hothers
  exact ⟨last, hlast, fun path => (hsame' path).trans (hsame path)⟩

/-- The same is found under a name when the nodes are alike, and the same when it is a file. -/
theorem Alike.found_eq {node other : Node} (h : Alike keep extension node other)
    (hfile : ∀ content, node = file content → other = node) (path name : String) :
    found keep extension path name (some other) = found keep extension path name (some node) := by
  cases node with
  | file content => rw [hfile content rfl]
  | dir entries =>
    obtain ⟨others, hothers, hsame⟩ := h [] entries rfl
    cases hothers
    rw [found_dir, found_dir, hsame]

/-- A file is alike to anything, since it holds no directory. -/
theorem alike_file (content : ByteArray) (other : Node) :
    Alike keep extension (file content) other := by
  intro place entries hentries
  cases place <;> cases hentries

/-- A change of one entry is not seen when the same is found under its name, and what stood there
is replaced by something alike. -/
theorem alike_alterEntry {name : String} {change : Option Node → Option Node}
    {held : List (String × Node)}
    (hstays : (child? name held).isSome = true → (change (child? name held)).isSome = true)
    (hfound : ∀ path, found keep extension path name (change (child? name held)) =
      found keep extension path name (child? name held))
    (hbelow : ∀ child changed, child? name held = some child → change (some child) = some changed →
      Alike keep extension child changed) :
    Alike keep extension (dir held) (dir (alterEntry name change held)) := by
  intro place entries hentries
  cases place with
  | nil =>
    cases hentries
    exact ⟨_, rfl, fun path => kept_alterEntry hstays (hfound path)⟩
  | cons other below =>
    rw [at?_alterEntry]
    by_cases hother : name = other
    · subst hother
      rw [at?] at hentries
      obtain ⟨child, hchild, hthere⟩ := Option.bind_eq_some_iff.mp hentries
      rw [hchild] at hstays ⊢
      obtain ⟨changed, hchanged⟩ := Option.isSome_iff_exists.mp (hstays rfl)
      rw [if_pos rfl, hchanged]
      exact hbelow child changed hchild hchanged below entries hthere
    · rw [if_neg hother]
      exact ⟨entries, hentries, fun _ => rfl⟩

/-- A change where no directory stands is not seen when the same is found there afterwards. -/
theorem alike_alter {root : Node} {above : Place} {name : String}
    {change : Option Node → Option Node}
    (hnotDir : ∀ entries, root.at? (above ++ [name]) ≠ some (dir entries))
    (hstays : (root.at? (above ++ [name])).isSome = true →
      (change (root.at? (above ++ [name]))).isSome = true)
    (hfound : ∀ path, found keep extension path name (change (root.at? (above ++ [name]))) =
      found keep extension path name (root.at? (above ++ [name]))) :
    Alike keep extension root (root.alter change (above ++ [name])) := by
  induction above generalizing root with
  | nil =>
    cases root with
    | file content => exact alike_file content _
    | dir held =>
      rw [List.nil_append, at?_singleton] at hnotDir hstays hfound
      refine alike_alterEntry hstays hfound ?_
      intro child changed hthere _
      cases child with
      | file content => exact alike_file content changed
      | dir entries => exact (hnotDir entries hthere).elim
  | cons first above ih =>
    cases root with
    | file content => exact alike_file content _
    | dir held =>
      rw [List.cons_append] at hnotDir hstays hfound ⊢
      rw [alter_cons]
      rw [at?] at hnotDir hstays hfound
      have hbelow : ∀ child, child? first held = some child →
          Alike keep extension child (child.alter change (above ++ [name])) := by
        intro child hchild
        rw [hchild, Option.bind_some] at hnotDir hstays hfound
        exact ih hnotDir hstays hfound
      refine alike_alterEntry (by simp) ?_ ?_
      · intro path
        cases hchild : child? first held with
        | none => rfl
        | some child =>
          refine (hbelow child hchild).found_eq ?_ path first
          rintro content rfl
          cases above <;> rfl
      · intro child changed hchild hchanged
        cases hchanged
        exact hbelow child hchild

end Node

namespace FileTree

variable {keep : String → Bool} {tree after : FileTree} {path extension : String}
  {content : ByteArray}

/-! ### Scans -/

/-- Everything stays in its place, and a scan for files with an extension finds the same of what is
kept by its path. -/
structure ScansAs (keep : String → Bool) (extension : String) (tree after : FileTree) : Prop where
  kept : tree.IsKeptIn after
  alike : Node.Alike keep extension tree.root after.root

/-- A scan sees no difference where there is none. -/
theorem ScansAs.refl (keep : String → Bool) (extension : String) (tree : FileTree) :
    ScansAs keep extension tree tree :=
  ⟨IsKeptIn.refl tree, Node.Alike.refl keep extension tree.root⟩

/-- A scan that sees no difference sees none further on. -/
theorem ScansAs.trans {between : FileTree} (h : ScansAs keep extension tree between)
    (h' : ScansAs keep extension between after) : ScansAs keep extension tree after :=
  ⟨h.kept.trans h'.kept, h.alike.trans h'.alike⟩

/-- What stands under a path does not have the extension. -/
def Lacks (tree : FileTree) (extension path : String) : Prop :=
  ∀ above name, placeOf tree.cwd path = above ++ [name] → extension? name ≠ some extension

/-- No scan sees a new directory, if no paths are kept that are too long, or if the directory has
another extension. -/
theorem scansAs_of_makeDir (h : tree.makeDir path = .ok after)
    (hunseen : (∀ path, keep path = true → isShort path = true) ∨ tree.Lacks extension path) :
    ScansAs keep extension tree after := by
  refine ⟨isKeptIn_of_makeDir h, ?_⟩
  obtain ⟨route, above, name, hroute, hnames, hfound, rfl⟩ := names_of_makeDir h
  apply Node.alike_alter
  · simp [hfound]
  · simp
  · intro path
    rw [hfound, Node.found_dir_nil (hunseen.imp_right fun hlacks =>
      hlacks above name (hnames.place_eq hroute).symm)]
    rfl

/-- No scan sees directories that are made to hold a path, if no paths are kept that are too long,
or if no segment has the extension. -/
theorem scansAs_makeParents (tree : FileTree) (path : String)
    (hunseen : (∀ path, keep path = true → isShort path = true) ∨
      ∀ segment ∈ (pathSegments path).dropLast, extension? segment ≠ some extension) :
    ScansAs keep extension tree (tree.makeParents path).1 := by
  apply makeDirs_induction (ScansAs.refl keep extension) fun _ _ _ => ScansAs.trans
  intro tree after below hbelow hmake
  refine scansAs_of_makeDir hmake (hunseen.imp_right fun hsegments => ?_)
  have hmem : ∀ segment ∈ below.reverse, segment ∈ (pathSegments path).dropLast := fun segment h =>
    List.mem_reverse.mp (hbelow.subset (List.mem_reverse.mp h))
  obtain ⟨before, last, hlast, hplace⟩ := getLast?_of_makeDir (fun segment h =>
    isFilled_of_mem_pathSegments ((List.dropLast_sublist _).subset (hmem segment h))) hmake
  intro above name hname
  obtain ⟨-, hsame⟩ := List.append_inj' (hname.symm.trans hplace) rfl
  rw [List.singleton_inj.mp hsame]
  exact hsegments last (hmem last (List.mem_of_getLast? hlast))

/-- A scan sees no file that has another extension. -/
theorem scansAs_of_write (hlacks : tree.Lacks extension path)
    (h : tree.write path content = .ok after) : ScansAs keep extension tree after := by
  refine ⟨isKeptIn_of_write h, ?_⟩
  obtain ⟨route, above, name, hroute, -, hnames, hnotDir, rfl⟩ := names_of_write h
  have hunseen : ∀ path content,
      Node.found keep extension path name (some (.file content)) = [] :=
    fun path => Node.found_file (hlacks above name (hnames.place_eq hroute).symm)
  rw [hasDir_iff, not_exists] at hnotDir
  apply Node.alike_alter hnotDir
  · simp
  · intro path
    rw [hunseen]
    rcases hfound : tree.root.at? (above ++ [name]) with _ | earlier | entries
    · rfl
    · rw [hunseen]
    · exact (hnotDir entries hfound).elim

/-- A scan sees no file that has another extension and is written with the directories above it. -/
theorem scansAs_of_writeWithDirs (hlacks : tree.Lacks extension path)
    (hunseen : (∀ path, keep path = true → isShort path = true) ∨
      ∀ segment ∈ (pathSegments path).dropLast, extension? segment ≠ some extension)
    (h : Disk.writeWithDirs tree path content = (after, none)) :
    ScansAs keep extension tree after := by
  have hmade := scansAs_makeParents tree path hunseen
  refine hmade.trans (scansAs_of_write ?_ (LawfulDisk.write_of_writeWithDirs h))
  rw [Lacks, hmade.kept.cwd]
  exact hlacks

/-- A scan sees none of several files that have another extension. -/
theorem scansAs_of_writtenInTurn {sources : List (String × String)}
    (h : WrittenInTurn tree sources after)
    (hlacks : ∀ source ∈ sources, tree.Lacks extension source.1)
    (hunseen : (∀ path, keep path = true → isShort path = true) ∨ ∀ source ∈ sources,
      ∀ segment ∈ (pathSegments source.1).dropLast, extension? segment ≠ some extension) :
    ScansAs keep extension tree after := by
  induction h with
  | nil tree => exact ScansAs.refl keep extension tree
  | cons hwrite _ ih =>
    obtain ⟨hpath, hothers⟩ := List.forall_mem_cons.mp hlacks
    have hfirst := scansAs_of_writeWithDirs hpath
      (hunseen.imp_right fun h => (List.forall_mem_cons.mp h).1) hwrite
    refine hfirst.trans (ih ?_ (hunseen.imp_right fun h => (List.forall_mem_cons.mp h).2))
    simpa only [Lacks, hfirst.kept.cwd] using hothers

/-- The same is kept of what is found in a directory. -/
theorem ScansAs.list (h : ScansAs keep extension tree after) {entries : List (String × Node)}
    (hlist : tree.list path = .ok entries) : ∃ others, after.list path = .ok others ∧
      Node.kept keep path (Node.entriesWithExtension isShort extension path others) =
        Node.kept keep path (Node.entriesWithExtension isShort extension path entries) := by
  obtain ⟨route, place, hleads, hentries⟩ := find_eq_dir_iff.mp (list_eq_ok.mp hlist)
  obtain ⟨others, hothers, hsame⟩ := h.alike place entries hentries
  exact ⟨others,
    list_eq_ok.mpr (find_eq_dir_iff.mpr ⟨route, place, h.kept.leadsTo hleads, hothers⟩), hsame path⟩

/-- No path that a scan of a directory lists is too long. -/
def ListsShortPaths (tree : FileTree) (dir extension : String) : Prop :=
  ∀ entries, tree.list dir = .ok entries →
    ∀ path ∈ declarationPaths dir extension entries, isShort path = true

/-- Everything that is found is kept when no path is too long. -/
theorem ListsShortPaths.kept_eq {dir : String} (h : tree.ListsShortPaths dir extension)
    {entries : List (String × Node)} (hlist : tree.list dir = .ok entries) :
    Node.kept isShort dir (Node.entriesWithExtension isShort extension dir entries) =
      Node.entriesWithExtension isShort extension dir entries := by
  rw [Node.kept, List.filter_eq_self]
  intro names hnames
  exact h entries hlist _ (List.mem_map_of_mem (List.mem_mergeSort.mpr hnames))

/-- No path gets too long when a scan lists the same. -/
theorem ScansAs.listsShortPaths (h : ScansAs (fun _ => true) extension tree after) {dir : String}
    {entries : List (String × Node)} (hlist : tree.list dir = .ok entries)
    (hshort : tree.ListsShortPaths dir extension) : after.ListsShortPaths dir extension := by
  obtain ⟨others, hothers, hfound⟩ := h.list hlist
  rw [Node.kept, List.filter_true, Node.kept, List.filter_true] at hfound
  intro entries' hentries'
  cases hothers.symm.trans hentries'
  rw [declarationPaths, hfound]
  exact hshort entries hlist

/-- A path under which declarations are found is not too long. -/
theorem isShort_of_scanFile {file : Declaration.File}
    (h : (PreferenceInjector.scanFile tree path).outcome = .ok file) : isShort path = true := by
  rw [PreferenceInjector.scanFile] at h
  split at h
  · next text htext =>
    obtain ⟨content, hread, -⟩ := except_bind_eq_ok.mp htext
    obtain ⟨route, hleads, -⟩ := read_eq_ok.mp hread
    exact Route.isShort_of_ofPath hleads.1
  · cases h

/-- A scan that succeeds lists no path that is too long. -/
theorem listsShortPaths_of_scanDir {dir : String} {files : List Declaration.File}
    (h : (PreferenceInjector.scanDir tree dir extension).outcome = .ok files) :
    tree.ListsShortPaths dir extension := by
  intro entries hlist path hpath
  rw [PreferenceInjector.scanDir, hlist] at h
  obtain ⟨⟨⟩, -, hfiles⟩ := Reported.outcome_bind_eq_ok.mp h
  obtain ⟨file, hfile⟩ :=
    exists_forall₂_iff.mp ⟨files, Reported.outcome_forEach_eq_ok.mp hfiles⟩ path hpath
  exact isShort_of_scanFile hfile

/-- The declarations in a file are the same when the file is. -/
theorem ScansAs.scanFile (h : ScansAs keep extension tree after) {file : Declaration.File}
    (hscan : (PreferenceInjector.scanFile tree path).outcome = .ok file)
    (hsame : ∀ content, tree.read path = .ok content →
      after.content? (placeOf tree.cwd path) = tree.content? (placeOf tree.cwd path)) :
    PreferenceInjector.scanFile after path = PreferenceInjector.scanFile tree path := by
  cases hread : tree.read path with
  | ok content =>
    have hreadText : after.readText path = tree.readText path := by
      rw [readText, readText, hread, h.kept.read hread (hsame content hread)]
    rw [PreferenceInjector.scanFile, PreferenceInjector.scanFile, hreadText]
  | error fault =>
    have hreadText : tree.readText path = .error fault := by
      rw [readText, hread]
      rfl
    rw [PreferenceInjector.scanFile, hreadText] at hscan
    cases hscan

/-- A scan that succeeds has the same result and the same reports when the files that it reads are
the same, and it lists no path that is too long. -/
theorem ScansAs.scanDir (h : ScansAs isShort extension tree after) {dir : String}
    {files : List Declaration.File}
    (hscan : (PreferenceInjector.scanDir tree dir extension).outcome = .ok files)
    (hsame : ∀ entries, ∀ path ∈ declarationPaths dir extension entries,
      ∀ content, tree.read path = .ok content →
        after.content? (placeOf tree.cwd path) = tree.content? (placeOf tree.cwd path))
    (hshort : after.ListsShortPaths dir extension) :
    PreferenceInjector.scanDir after dir extension =
      PreferenceInjector.scanDir tree dir extension := by
  cases hlist : tree.list dir with
  | error fault =>
    rw [PreferenceInjector.scanDir, hlist] at hscan
    cases hscan
  | ok entries =>
    obtain ⟨others, hothers, hfound⟩ := h.list hlist
    rw [hshort.kept_eq hothers, (listsShortPaths_of_scanDir hscan).kept_eq hlist] at hfound
    have hpaths : declarationPaths dir extension others =
        declarationPaths dir extension entries := by
      rw [declarationPaths, hfound, declarationPaths]
    rw [PreferenceInjector.scanDir, hlist] at hscan
    obtain ⟨⟨⟩, -, hfiles⟩ := Reported.outcome_bind_eq_ok.mp hscan
    have hread := exists_forall₂_iff.mp ⟨files, Reported.outcome_forEach_eq_ok.mp hfiles⟩
    have hloop : Reported.forEach (PreferenceInjector.scanFile after)
        (declarationPaths dir extension entries) =
        Reported.forEach (PreferenceInjector.scanFile tree)
          (declarationPaths dir extension entries) := by
      apply Reported.forEach_congr
      intro path hpath
      obtain ⟨file, hfile⟩ := hread path hpath
      exact h.scanFile hfile (hsame entries path hpath)
    rw [PreferenceInjector.scanDir, PreferenceInjector.scanDir, hothers, hlist]
    simp only [hpaths, hloop]

/-- A file that a scan reads stands at a place whose last name has the extension, if it has one. -/
theorem exists_extension_of_read {dir : String} {entries : List (String × Node)}
    (hpath : path ∈ declarationPaths dir extension entries)
    (hread : tree.read path = .ok content) :
    ∃ above name, placeOf tree.cwd path = above ++ [name] ∧
      ('.' ∈ name.toList → simpleName name = extension) := by
  obtain ⟨names, hnames, rfl⟩ := List.mem_map.mp hpath
  obtain ⟨segments, last, rfl, hlast⟩ :=
    Node.exists_last_of_entries dir entries names (List.mem_mergeSort.mp hnames)
  obtain ⟨hdot, hextension⟩ := simpleName_of_extension? hlast
  obtain ⟨above, name, hplace, hsuffix⟩ := exists_name_of_read hread
  refine ⟨above, name, hplace, ?_⟩
  intro hnameDot
  have hjoined : last.toList <:+ ((segments ++ [last]).foldl joinPath dir).toList := by
    rw [List.foldl_append]
    exact suffix_joinPath _ last
  rw [← simpleName_of_suffix hsuffix hnameDot, simpleName_of_suffix hjoined hdot, hextension]

end FileTree

end PreferenceInjector
