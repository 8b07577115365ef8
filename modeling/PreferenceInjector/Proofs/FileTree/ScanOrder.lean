import PreferenceInjector.Proofs.FileTree.BelowDirectories

/-!
# Scans in the order of a walk

A scan reads what a walk through the directory finds, in the order in which it finds it, and ends at
the first file that cannot be read. The walk goes through a directory when its path leads to it.
What stands at the places of the tree decides about all of this, so the order in which directories
list their entries has no influence.

A path that is too long leads nowhere. So files in a directory that lies too deep are passed over,
and the directory is taken for a file itself when its name has the extension. A scan finds all files
and nothing else exactly when neither happens.
-/

namespace PreferenceInjector.FileTree

open Declaration (File)

variable {tree other : FileTree} {isDir : String → Bool} {dir extension : String}
  {entries : List (String × Node)} {found : List Place}

/-! ### Scans -/

/-- The declarations in what stands at a place below a directory, or why there are none. -/
inductive Yields (tree : FileTree) (dir : String) (names : Place) : Except Failure File → Prop
  /-- The declarations in a file are those of its content. -/
  | file {content} (hcontent : tree.content? (placeOf tree.cwd dir ++ names) = some content) :
    Yields tree dir names (declarationsOf (names.foldl joinPath dir) content).outcome
  /-- A directory under a path that is too long is no file that can be read. -/
  | tooDeep (hhasDir : tree.HasDir (placeOf tree.cwd dir ++ names))
    (hlong : isShort (names.foldl joinPath dir) = false) :
    Yields tree dir names (.error (.file .nameTooLong))

/-- A scan reads what a walk through a directory finds, each of it once. It results in the
declarations of all of this, in this order, or in the failure of the first file that has none. -/
structure ScansInOrder (tree : FileTree) (isDir : String → Bool) (dir extension : String)
    (entries : List (String × Node)) (found : List Place) : Prop where
  walk : ∀ walked, Node.IsWalk isDir extension dir entries walked ↔ walked = found
  once : found.Nodup
  listed : declarationPaths dir extension entries = found.map (·.foldl joinPath dir)
  reports : ∃ events,
    (scanDir tree dir extension).events = .scanning found.length dir :: events
  succeeds : ∀ files, (scanDir tree dir extension).outcome = .ok files ↔
    List.Forall₂ (fun names file => tree.Yields dir names (.ok file)) found files
  fails : ∀ failure, (scanDir tree dir extension).outcome = .error failure ↔
    ∃ before names later, found = before ++ names :: later ∧
      (∀ earlier ∈ before, ∃ file, tree.Yields dir earlier (.ok file)) ∧
      tree.Yields dir names (.error failure)

/-- A scan of a directory finds all files below it that have the extension, at any depth, and
nothing else. -/
def ScansAllFiles (tree : FileTree) (dir extension : String) (entries : List (String × Node)) :
    Prop :=
  ∃ found, tree.ScansInOrder (fun _ => true) dir extension entries found ∧
    ∀ names, names ∈ found ↔ Place.HasExtension extension names ∧
      ∃ content, tree.content? (placeOf tree.cwd dir ++ names) = some content

/-- No directory below the given one lies too deep: each file with the extension stands in a
directory whose path is not too long, and the path of a directory with the extension is not too long
either, unless the one of the directory that holds it is. -/
structure IsWithinReach (tree : FileTree) (dir extension : String) : Prop where
  files : ∀ above name content, HasExtension extension name →
    tree.content? (placeOf tree.cwd dir ++ (above ++ [name])) = some content →
      isShort (above.foldl joinPath dir) = true
  dirs : ∀ above name, HasExtension extension name →
    tree.HasDir (placeOf tree.cwd dir ++ (above ++ [name])) →
      isShort (above.foldl joinPath dir) = true →
        isShort ((above ++ [name]).foldl joinPath dir) = true

/-- What is taken for a file with an extension is read, and tells whether it has declarations. -/
theorem outcome_scanFile_iff (hproper : tree.root.HasProperNames)
    (hdir : tree.list dir = .ok entries) {names : Place}
    (hextension : Place.HasExtension extension names) (htaken : tree.IsTaken isShort dir names)
    {result : Except Failure File} :
    (scanFile tree (names.foldl joinPath dir)).outcome = result ↔
      tree.Yields dir names result := by
  have hne : names ≠ [] := by
    obtain ⟨above, name, rfl, -⟩ := hextension
    simp
  cases hkind : tree.kind? (placeOf tree.cwd dir ++ names) with
  | none => exact (htaken.stands hkind).elim
  | some label =>
    cases label with
    | some content =>
      have hcontent : tree.content? (placeOf tree.cwd dir ++ names) = some content := by
        rw [content?, hkind]
        rfl
      rw [scanFile_foldl_joinPath hproper hdir hne hcontent]
      constructor
      · rintro rfl
        exact .file hcontent
      · intro h
        cases h with
        | file hother => rw [Option.some_inj.mp (hcontent.symm.trans hother)]
        | tooDeep hhasDir => cases hkind.symm.trans hhasDir
    | none =>
      obtain ⟨held, hheld⟩ := hasDir_iff.mp hkind
      rw [scanFile_of_long hdir (isFileName_of_at? hproper hheld) hne (htaken.stops hkind)]
      constructor
      · rintro rfl
        exact .tooDeep hkind (htaken.stops hkind)
      · intro h
        cases h with
        | file hother =>
          rw [content?, hkind] at hother
          cases hother
        | tooDeep => rfl

/-- A scan lists what a walk finds, in the order in which it is found. -/
theorem declarationPaths_of_isWalk (hproper : tree.root.HasProperNames)
    (hdir : tree.list dir = .ok entries)
    (hwalk : Node.IsWalk isShort extension dir entries found) :
    declarationPaths dir extension entries = found.map (·.foldl joinPath dir) := by
  obtain ⟨-, -, hentries⟩ := at?_of_list hproper hdir
  rw [declarationPaths, ← hwalk.eq_mergeSort hentries]

/-- A scan reads what a walk finds, in the order in which it is found. -/
theorem scanDir_of_isWalk (hproper : tree.root.HasProperNames) (hdir : tree.list dir = .ok entries)
    (hwalk : Node.IsWalk isShort extension dir entries found) :
    scanDir tree dir extension = Reported.report (.scanning found.length dir) >>= fun _ =>
      Reported.forEach (fun names => scanFile tree (names.foldl joinPath dir)) found := by
  rw [scanDir, hdir]
  simp only [declarationPaths_of_isWalk hproper hdir hwalk, List.length_map, Reported.forEach_map]

/-- A scan reads what any walk finds that goes through the directories whose paths are not too
long. -/
theorem scansInOrder_of_isWalk (hproper : tree.root.HasProperNames)
    (hdir : tree.list dir = .ok entries)
    (hwalk : Node.IsWalk isShort extension dir entries found)
    (hwalk' : Node.IsWalk isDir extension dir entries found) :
    tree.ScansInOrder isDir dir extension entries found := by
  have hmem := mem_of_isWalk hproper hdir hwalk
  have hyields : ∀ names ∈ found, ∀ result, (scanFile tree (names.foldl joinPath dir)).outcome =
      result ↔ tree.Yields dir names result := by
    intro names hnames result
    obtain ⟨hextension, htaken⟩ := (hmem names).mp hnames
    exact outcome_scanFile_iff hproper hdir hextension htaken
  have hscan := scanDir_of_isWalk hproper hdir hwalk
  rw [Reported.bind_of_ok (Reported.outcome_report _)] at hscan
  obtain ⟨walked, hwalks⟩ := Node.exists_unique_isWalk isDir extension dir
    (at?_of_list hproper hdir).2
  obtain rfl := (hwalks found).mp hwalk'
  refine ⟨hwalks, hwalk.pairwise.imp ne_of_lt, declarationPaths_of_isWalk hproper hdir hwalk,
    ⟨_, by rw [hscan]; rfl⟩, ?_, ?_⟩
  · intro files
    rw [hscan, Reported.outcome_forEach_eq_ok]
    constructor
    · exact fun h => forall₂_imp_of_mem h fun names hnames file _ => (hyields names hnames _).mp
    · exact fun h => forall₂_imp_of_mem h fun names hnames file _ => (hyields names hnames _).mpr
  · intro failure
    rw [hscan, Reported.outcome_forEach_eq_error]
    constructor
    · rintro ⟨before, names, later, rfl, hbefore, hfails⟩
      refine ⟨before, names, later, rfl, ?_, (hyields names (by simp) _).mp hfails⟩
      intro earlier hearlier
      obtain ⟨file, hfile⟩ := hbefore earlier hearlier
      exact ⟨file, (hyields earlier (by simp [hearlier]) _).mp hfile⟩
    · rintro ⟨before, names, later, rfl, hbefore, hfails⟩
      refine ⟨before, names, later, rfl, ?_, (hyields names (by simp) _).mpr hfails⟩
      intro earlier hearlier
      obtain ⟨file, hfile⟩ := hbefore earlier hearlier
      exact ⟨file, (hyields earlier (by simp [hearlier]) _).mpr hfile⟩

/-- There is a walk through a directory that goes through what the paths of directories lead to, and
a scan reads what it finds. -/
theorem exists_scansInOrder (hproper : tree.root.HasProperNames)
    (hdir : tree.list dir = .ok entries) (extension : String) :
    ∃ found, tree.ScansInOrder tree.isDir dir extension entries found ∧
      ∀ names, names ∈ found ↔
        Place.HasExtension extension names ∧ tree.IsTaken tree.isDir dir names := by
  have hentries := (at?_of_list hproper hdir).2
  obtain ⟨found, hwalks⟩ := Node.exists_unique_isWalk isShort extension dir hentries
  obtain ⟨found', hwalks'⟩ := Node.exists_unique_isWalk tree.isDir extension dir hentries
  have hwalk := (hwalks found).mpr rfl
  have hwalk' := (hwalks' found').mpr rfl
  have hmem := mem_of_isWalk hproper hdir hwalk
  have hmem' := mem_of_isWalk hproper hdir hwalk'
  obtain rfl : found = found' := isWalk_eq_of_mem_iff hwalk hwalk' fun names => by
    rw [hmem, hmem', isTaken_isDir_iff hproper hdir]
  exact ⟨found, scansInOrder_of_isWalk hproper hdir hwalk hwalk', hmem'⟩

/-! ### Directories that lie too deep -/

/-- Within reach, what is taken for a file with an extension is a file. -/
theorem IsWithinReach.isTaken_iff (h : tree.IsWithinReach dir extension)
    (hproper : tree.root.HasProperNames) (hdir : tree.list dir = .ok entries) {names : Place}
    (hextension : Place.HasExtension extension names) :
    tree.IsTaken isShort dir names ↔ tree.IsTaken (fun _ => true) dir names := by
  obtain ⟨above, name, rfl, hname⟩ := hextension
  constructor
  · intro htaken
    refine ⟨htaken.stands, fun hhasDir => ?_, fun _ _ _ _ _ => rfl⟩
    have habove : isShort (above.foldl joinPath dir) = true := by
      rcases eq_or_ne above [] with rfl | hne
      · exact isShort_of_list hdir
      · exact htaken.through above [name] rfl hne (by simp)
    have hshort := h.dirs above name hname hhasDir habove
    exact (Bool.false_ne_true ((htaken.stops hhasDir).symm.trans hshort)).elim
  · intro htaken
    refine ⟨htaken.stands, fun hhasDir => (htaken.not_hasDir hhasDir).elim, ?_⟩
    intro before below hnames hbefore hbelow
    obtain ⟨content, hcontent⟩ := isTaken_true_iff.mp htaken
    have hfiles := isFileName_of_at? hproper (content?_eq_some_iff.mp hcontent)
    exact isShort_of_append_eq hnames hbelow
      (fun other hother => (hfiles other (List.mem_append_left _ hother)).plain)
      (h.files above name content hname hcontent)

/-- A directory is within reach if just the files in it are taken for files. -/
theorem isWithinReach_of_isTaken_iff (hproper : tree.root.HasProperNames)
    (hdir : tree.list dir = .ok entries)
    (h : ∀ names, Place.HasExtension extension names →
      (tree.IsTaken isShort dir names ↔ tree.IsTaken (fun _ => true) dir names)) :
    tree.IsWithinReach dir extension := by
  constructor
  · intro above name content hname hcontent
    have htaken := (h _ ⟨above, name, rfl, hname⟩).mpr (isTaken_true_iff.mpr ⟨content, hcontent⟩)
    rcases eq_or_ne above [] with rfl | hne
    · exact isShort_of_list hdir
    · exact htaken.through above [name] rfl hne (by simp)
  · intro above name hname hhasDir habove
    by_contra hlong
    have htaken : tree.IsTaken isShort dir (above ++ [name]) := by
      refine ⟨fun hnone => ?_, fun _ => Bool.not_eq_true _ ▸ hlong, ?_⟩
      · cases hnone.symm.trans hhasDir
      · intro before below hnames hbefore hbelow
        obtain ⟨held, hheld⟩ := hasDir_iff.mp hhasDir
        have hfiles := isFileName_of_at? hproper hheld
        exact isShort_of_append_eq hnames hbelow
          (fun other hother => (hfiles other (List.mem_append_left _ hother)).plain) habove
    exact ((h _ ⟨above, name, rfl, hname⟩).mp htaken).not_hasDir hhasDir

/-- A directory is within reach if no path of a directory below it is too long. -/
theorem isWithinReach_of_isShort
    (h : ∀ names, tree.HasDir (placeOf tree.cwd dir ++ names) →
      isShort (names.foldl joinPath dir) = true) : tree.IsWithinReach dir extension := by
  refine ⟨fun above name content _ hcontent => h above ?_, fun _ _ _ hhasDir _ => h _ hhasDir⟩
  have hthere := content?_eq_some_iff.mp hcontent
  rw [← List.append_assoc, Node.at?_append] at hthere
  obtain ⟨holder, hholder, hlast⟩ := Option.bind_eq_some_iff.mp hthere
  cases holder with
  | file content => cases hlast
  | dir held => exact hasDir_iff.mpr ⟨held, hholder⟩

/-- Different ways from a directory have different paths. -/
theorem eq_of_map_foldl_joinPath_eq {found' : List Place}
    (h : ∀ names ∈ found, ∀ name ∈ names, IsPlain name)
    (h' : ∀ names ∈ found', ∀ name ∈ names, IsPlain name)
    (hpaths : found.map (·.foldl joinPath dir) = found'.map (·.foldl joinPath dir)) :
    found = found' := by
  have hsegments : ∀ found : List Place, (∀ names ∈ found, ∀ name ∈ names, IsPlain name) →
      (found.map (·.foldl joinPath dir)).map pathSegments =
        found.map fun names => pathSegments dir ++ names := by
    intro found hplain
    rw [List.map_map]
    refine List.map_congr_left fun names hnames => ?_
    exact foldl_joinPath_eq_append
      (fun name hmem => pathSegments_joinPath (hplain names hnames name hmem)) dir
  have hwith := congrArg (List.map pathSegments) hpaths
  rw [hsegments found h, hsegments found' h'] at hwith
  exact List.map_injective_iff.mpr (List.append_right_injective _) hwith

/-- A scan finds all files with the extension exactly when no directory lies too deep. -/
theorem scansAllFiles_iff (hproper : tree.root.HasProperNames)
    (hdir : tree.list dir = .ok entries) (extension : String) :
    tree.ScansAllFiles dir extension entries ↔ tree.IsWithinReach dir extension := by
  have hentries := (at?_of_list hproper hdir).2
  obtain ⟨found, hwalks⟩ := Node.exists_unique_isWalk isShort extension dir hentries
  have hwalk := (hwalks found).mpr rfl
  have hmem := mem_of_isWalk hproper hdir hwalk
  constructor
  · rintro ⟨found', hscans, -⟩
    have hwalk' := (hscans.walk found').mpr rfl
    have hmem' := mem_of_isWalk hproper hdir hwalk'
    have hplain : ∀ isDir names, tree.IsTaken isDir dir names → ∀ name ∈ names, IsPlain name := by
      intro isDir names htaken name hname
      obtain ⟨node, hnode⟩ := Option.isSome_iff_exists.mp (kind?_ne_none_iff.mp htaken.stands)
      exact (isFileName_of_at? hproper hnode name hname).plain
    obtain rfl : found = found' := eq_of_map_foldl_joinPath_eq
      (fun names hnames => hplain _ names ((hmem names).mp hnames).2)
      (fun names hnames => hplain _ names ((hmem' names).mp hnames).2)
      ((declarationPaths_of_isWalk hproper hdir hwalk).symm.trans hscans.listed)
    refine isWithinReach_of_isTaken_iff hproper hdir fun names hextension => ?_
    have hboth := (hmem names).symm.trans (hmem' names)
    rwa [and_congr_right_iff, imp_iff_right hextension] at hboth
  · intro hreach
    obtain ⟨found', hwalks'⟩ := Node.exists_unique_isWalk (fun _ => true) extension dir hentries
    have hwalk' := (hwalks' found').mpr rfl
    have hmem' := mem_of_isWalk hproper hdir hwalk'
    obtain rfl : found = found' := isWalk_eq_of_mem_iff hwalk hwalk' fun names => by
      rw [hmem, hmem']
      exact and_congr_right fun hextension => hreach.isTaken_iff hproper hdir hextension
    refine ⟨found, scansInOrder_of_isWalk hproper hdir hwalk hwalk', fun names => ?_⟩
    rw [hmem', isTaken_true_iff]

/-! ### Orders of listing -/

/-- Directories are listed when the same stands at all places. -/
theorem exists_list_of_kind?_eq (hcwd : other.cwd = tree.cwd) (hkind : other.kind? = tree.kind?)
    (hdir : tree.list dir = .ok entries) : ∃ others, other.list dir = .ok others := by
  obtain ⟨route, place, hleads, hentries⟩ := find_eq_dir_iff.mp (list_eq_ok.mp hdir)
  have hkept : tree.IsKeptIn other :=
    ⟨hcwd, fun _ h => by rwa [HasDir, hkind], fun _ h => by rwa [hkind]⟩
  obtain ⟨others, hothers⟩ := hasDir_iff.mp (hkept.hasDir place (hasDir_iff.mpr ⟨_, hentries⟩))
  exact ⟨others, list_eq_ok.mpr (find_eq_dir_iff.mpr ⟨route, place, hkept.leadsTo hleads, hothers⟩)⟩

/-- A scan is the same when the same stands at all places, in whatever order it is listed. -/
theorem scanDir_eq_of_kind?_eq (hproper : tree.root.HasProperNames)
    (hdir : tree.list dir = .ok entries) (hother : other.root.HasProperNames)
    (hcwd : other.cwd = tree.cwd) (hkind : other.kind? = tree.kind?) :
    scanDir other dir extension = scanDir tree dir extension := by
  obtain ⟨others, hlist⟩ := exists_list_of_kind?_eq hcwd hkind hdir
  obtain ⟨found, hwalks⟩ := Node.exists_unique_isWalk isShort extension dir
    (at?_of_list hproper hdir).2
  obtain ⟨found', hwalks'⟩ := Node.exists_unique_isWalk isShort extension dir
    (at?_of_list hother hlist).2
  have hwalk := (hwalks found).mpr rfl
  have hwalk' := (hwalks' found').mpr rfl
  have hmem := mem_of_isWalk hproper hdir hwalk
  have hmem' := mem_of_isWalk hother hlist hwalk'
  have hsame : ∀ names, other.IsTaken isShort dir names ↔ tree.IsTaken isShort dir names := by
    intro names
    constructor
    · rintro ⟨hstands, hstops, hthrough⟩
      rw [hcwd, hkind] at hstands
      rw [HasDir, hcwd, hkind] at hstops
      exact ⟨hstands, hstops, hthrough⟩
    · rintro ⟨hstands, hstops, hthrough⟩
      refine ⟨?_, ?_, hthrough⟩
      · rwa [hcwd, hkind]
      · rwa [HasDir, hcwd, hkind]
  obtain rfl : found' = found := isWalk_eq_of_mem_iff hwalk' hwalk fun names => by
    rw [hmem, hmem', hsame]
  rw [scanDir_of_isWalk hproper hdir hwalk, scanDir_of_isWalk hother hlist hwalk']
  refine congrArg _ (funext fun _ => Reported.forEach_congr fun names hnames => ?_)
  obtain ⟨⟨above, name, hlast, -⟩, htaken⟩ := (hmem names).mp hnames
  have hne : names ≠ [] := by simp [hlast]
  obtain ⟨node, hnode⟩ := Option.isSome_iff_exists.mp (kind?_ne_none_iff.mp htaken.stands)
  have hfiles := isFileName_of_at? hproper hnode
  cases node with
  | file content =>
    have hcontent := content?_eq_some_iff.mpr hnode
    rw [scanFile_foldl_joinPath hproper hdir hne hcontent,
      scanFile_foldl_joinPath hother hlist hne (by rw [content?, hcwd, hkind]; exact hcontent)]
  | dir held =>
    have hlong := htaken.stops (hasDir_iff.mpr ⟨held, hnode⟩)
    rw [scanFile_of_long hdir hfiles hne hlong, scanFile_of_long hlist hfiles hne hlong]

/-- A scan of a directory reads, in the order of a walk, what stands below it under a name with the
extension and is no directory by its path. This is all files with the extension and nothing else
exactly when no directory lies too deep. A scan is the same for every order in which the directories
of the tree list their entries. -/
theorem scanDir_spec (hproper : tree.root.HasProperNames) (hdir : tree.list dir = .ok entries)
    (extension : String) :
    (∃ found, tree.ScansInOrder tree.isDir dir extension entries found ∧
      ∀ names, names ∈ found ↔
        Place.HasExtension extension names ∧ tree.IsTaken tree.isDir dir names) ∧
      (tree.ScansAllFiles dir extension entries ↔ tree.IsWithinReach dir extension) ∧
      ∀ other : FileTree, other.root.HasProperNames → other.cwd = tree.cwd →
        other.kind? = tree.kind? → scanDir other dir extension = scanDir tree dir extension :=
  ⟨exists_scansInOrder hproper hdir extension, scansAllFiles_iff hproper hdir extension,
    fun _ hother hcwd hkind => scanDir_eq_of_kind?_eq hproper hdir hother hcwd hkind⟩

/-- A tree with one directory. -/
def outerTree (entries : List (String × Node)) : FileTree := ⟨.dir [("in", .dir entries)], []⟩

/-- The entries of a directory, in the order of their names. -/
def orderedEntries : List (String × Node) := [
  (".prefs", .file .empty),
  ("a", .dir [("x.prefs", .file .empty)]),
  ("a-b", .dir [("y.prefs", .file .empty)]),
  ("a.prefs", .file .empty)]

/-- The tree with the directory, which lists its entries the other way round. -/
def reversedTree : FileTree := outerTree orderedEntries.reverse

/-- A walk through the directory, whatever the order of its entries. A slash is greater than a minus
sign and a dot, but the directory with the least name is walked through first. -/
theorem isWalk_reverse_orderedEntries : Node.IsWalk reversedTree.isDir "prefs" "in"
    orderedEntries.reverse [["a", "x.prefs"], ["a-b", "y.prefs"], ["a.prefs"]] := by
  have hfile : ∀ path name, (Node.file .empty).isDir = true →
      reversedTree.isDir (joinPath path name) = false := fun _ _ h => (Bool.false_ne_true h).elim
  have hextension : ∀ name ∈ ["x.prefs", "y.prefs", "a.prefs"], HasExtension "prefs" name := by
    have hnames : ∀ name ∈ ["x.prefs", "y.prefs", "a.prefs"],
        IsFileName name ∧ extension? name = some "prefs" := by decide +kernel
    exact fun name hmem => (hasExtension_iff (hnames name hmem).1.plain).mpr (hnames name hmem).2
  have hhidden : ¬ HasExtension "prefs" ".prefs" := by
    have hname : IsFileName ".prefs" ∧ extension? ".prefs" = none := by decide +kernel
    simp [hasExtension_iff hname.1.plain, hname.2]
  have hlast : Node.IsWalk reversedTree.isDir "prefs" "in" [("a.prefs", .file .empty)]
      [["a.prefs"]] :=
    .take (List.forall_mem_nil _) (hfile _ _) (hextension _ (by simp)) .nil
  have hbelow : ∀ path, ∀ name ∈ ["x.prefs", "y.prefs"],
      Node.IsWalk reversedTree.isDir "prefs" path [(name, .file .empty)] [[name]] :=
    fun path name hmem => .take (List.forall_mem_nil _) (hfile _ _)
      (hextension name (List.mem_append_left ["a.prefs"] hmem)) .nil
  have hsecond : Node.IsWalk reversedTree.isDir "prefs" "in"
      [("a-b", .dir [("y.prefs", .file .empty)]), ("a.prefs", .file .empty)]
      [["a-b", "y.prefs"], ["a.prefs"]] :=
    .enter (by decide +kernel) (by decide +kernel) (hbelow _ _ (by simp)) hlast
  exact .reorder (List.reverse_perm _) (.pass (by decide +kernel) (hfile _ _) hhidden
    (.enter (by decide +kernel) (by decide +kernel) (hbelow _ _ (by simp)) hsecond))

/-- No directory of the tree lies too deep. -/
theorem isWithinReach_reversedTree : reversedTree.IsWithinReach "in" "prefs" := by
  apply isWithinReach_of_isShort
  intro names hhasDir
  obtain ⟨held, hheld⟩ := hasDir_iff.mp hhasDir
  change (Node.dir orderedEntries.reverse).at? names = _ at hheld
  simp only [orderedEntries, List.reverse_cons, List.reverse_nil, List.nil_append,
    List.cons_append] at hheld
  rcases names with _ | ⟨first, _ | ⟨second, rest⟩⟩
  · decide +kernel
  · simp only [Node.at?_dir_cons] at hheld
    split_ifs at hheld with hfirst hfirst hfirst hfirst
    · cases hheld
    · subst hfirst
      decide +kernel
    · subst hfirst
      decide +kernel
    · cases hheld
    · cases hheld
  · -- Only files stand below the two inner directories.
    simp only [Node.at?_dir_cons] at hheld
    split_ifs at hheld
    · cases hheld
    · cases rest <;> cases hheld
    · cases hheld
    · cases rest <;> cases hheld
    · cases hheld
    · cases hheld
    · cases hheld

/-- A scan of the directory reads the files in the order of the walk. -/
theorem scanDir_spec_reversed :
    reversedTree.root.HasProperNames ∧
      reversedTree.list "in" = .ok orderedEntries.reverse ∧
      (∃ found, reversedTree.ScansInOrder reversedTree.isDir "in" "prefs" orderedEntries.reverse
          found ∧ found = [["a", "x.prefs"], ["a-b", "y.prefs"], ["a.prefs"]]) ∧
      reversedTree.ScansAllFiles "in" "prefs" orderedEntries.reverse ∧
      ∀ other : FileTree, other.root.HasProperNames → other.cwd = reversedTree.cwd →
        other.kind? = reversedTree.kind? →
          scanDir other "in" "prefs" = scanDir reversedTree "in" "prefs" := by
  have hproper : reversedTree.root.HasProperNames := by
    simp only [reversedTree, outerTree, orderedEntries, List.reverse_cons, List.reverse_nil,
      List.nil_append, List.cons_append, Node.HasProperNames, Node.EntriesHaveProperNames]
    decide
  have hlist : reversedTree.list "in" = .ok orderedEntries.reverse := rfl
  obtain ⟨⟨found, hscans, -⟩, hall, hsame⟩ := scanDir_spec hproper hlist "prefs"
  have hfound := (hscans.walk _).mp isWalk_reverse_orderedEntries
  exact ⟨hproper, hlist, ⟨found, hscans, hfound.symm⟩, hall.mpr isWithinReach_reversedTree, hsame⟩

/-! ### A directory that lies too deep -/

/-- The directory with slashes behind its name. -/
def slashedPath (n : Nat) : String := "in" ++ String.ofList (List.replicate n '/')

/-- Slashes behind a path add no segments. -/
theorem filledSegments_append_slashes (path : String) (n : Nat) :
    filledSegments (path ++ String.ofList (List.replicate n '/')) = filledSegments path := by
  have hpieces : ∀ n, pieces '/' (List.replicate n '/') = List.replicate (n + 1) [] := by
    intro n
    induction n with
    | zero => rfl
    | succ n ih => rw [List.replicate_succ, pieces, if_pos rfl, ih, ← List.replicate_succ]
  cases n with
  | zero => simp
  | succ n =>
    rw [filledSegments, splitAt, String.toList_append, String.toList_ofList, List.replicate_succ,
      pieces_append_cons, hpieces, List.map_append, List.filter_append]
    simp [filledSegments, splitAt]

/-- The path ends in its last slash. -/
theorem toList_slashedPath (n : Nat) :
    (slashedPath (n + 1)).toList = 'i' :: 'n' :: List.replicate n '/' ++ ['/'] := by
  simp [slashedPath, List.replicate_succ']

/-- Each slash is a byte. -/
theorem utf8ByteSize_slashedPath (n : Nat) : (slashedPath n).utf8ByteSize = n + 2 := by
  induction n with
  | zero => rfl
  | succ n ih =>
    have hlast : slashedPath (n + 1) = slashedPath n ++ "/" := by
      simp [slashedPath, ← String.toList_inj, List.replicate_succ']
    rw [hlast, String.utf8ByteSize_append, ih]
    rfl

/-- The path leads to the directory unless it is too long. -/
theorem list_slashedPath {n : Nat} (h : n + 3 < pathLimit) (hcwd : tree.cwd = [])
    (hthere : tree.root.at? ["in"] = some (.dir entries)) :
    tree.list (slashedPath (n + 1)) = .ok entries := by
  have hsegments := filledSegments_append_slashes "in" (n + 1)
  have hroute : Route.ofPath (slashedPath (n + 1)) = .ok ⟨false, ["in"], true⟩ := by
    have hsize : ¬ pathLimit ≤ (slashedPath (n + 1)).utf8ByteSize := by
      rw [utf8ByteSize_slashedPath]
      omega
    have hzero : (slashedPath (n + 1)).toList.contains '\x00' = false := by
      simp [toList_slashedPath]
    have hempty : (slashedPath (n + 1)).isEmpty = false := by
      simp [slashedPath]
    change filledSegments (slashedPath (n + 1)) = ["in"] at hsegments
    rw [filledSegments] at hsegments
    rw [Route.ofPath, hzero, hempty, if_neg Bool.false_ne_true, if_neg Bool.false_ne_true,
      if_neg hsize, hsegments, toList_slashedPath, List.getLast?_concat]
    rfl
  have hname : ∀ name ∈ ["in"], IsFileName name := by decide +kernel
  have hstart : follow tree.root [] [] = .ok [] := rfl
  have hfollow : follow tree.root [] ["in"] = .ok ["in"] :=
    follow_append_eq_ok hstart hname hthere
  refine list_eq_ok.mpr (find_eq_dir_iff.mpr ⟨_, ["in"], ⟨hroute, ?_⟩, hthere⟩)
  rwa [start, hcwd, ite_self]

/-- A path in the directory has the slashes of the path of the directory. -/
theorem isShort_joinPath_slashedPath {name : String} (hname : IsPlain name) (n : Nat) :
    isShort (joinPath (slashedPath (n + 1)) name) =
      decide (n + 3 + name.utf8ByteSize < pathLimit) := by
  have hlast : (slashedPath (n + 1)).toList.getLast? = some '/' := by
    rw [toList_slashedPath, List.getLast?_concat]
  rw [isShort, joinPath_of_isPlain hname, separator, if_pos (.inr hlast), String.append_empty,
    String.utf8ByteSize_append, utf8ByteSize_slashedPath]

/-- A directory that lies too deep is taken for a file when its name has the extension. -/
theorem scanDir_of_deep_hasExtension (hproper : tree.root.HasProperNames) {name : String}
    {held : List (String × Node)} (hdir : tree.list dir = .ok [(name, .dir held)])
    (hlong : isShort (joinPath dir name) = false) (hname : HasExtension extension name) :
    (scanDir tree dir extension).outcome = .error (.file .nameTooLong) := by
  have hentries := (at?_of_list hproper hdir).2.2
  have hnames : ∀ other ∈ [name], IsFileName other := by
    simpa using (Node.entriesHaveProperNames_iff.mp hentries _ List.mem_cons_self).1
  have hwalk : Node.IsWalk isShort extension dir [(name, .dir held)] [[name]] :=
    .take (List.forall_mem_nil _) (fun _ => hlong) hname .nil
  rw [scanDir_of_isWalk hproper hdir hwalk, Reported.bind_of_ok (Reported.outcome_report _)]
  refine Reported.outcome_forEach_eq_error.mpr ⟨[], [name], [], rfl, List.forall_mem_nil _, ?_⟩
  rw [scanFile_of_long hdir hnames (List.cons_ne_nil _ _) hlong]
  rfl

/-- The files below a directory are not all that is found when a directory in it lies too deep and
has the extension. -/
theorem not_scansAllFiles_of_deep (hproper : tree.root.HasProperNames) {name : String}
    {held : List (String × Node)} (hdir : tree.list dir = .ok [(name, .dir held)])
    (hlong : isShort (joinPath dir name) = false) (hname : HasExtension extension name) :
    ¬ tree.ScansAllFiles dir extension [(name, .dir held)] := by
  intro hall
  have hreach := (scansAllFiles_iff hproper hdir extension).mp hall
  have hhasDir : tree.HasDir (placeOf tree.cwd dir ++ [name]) := by
    refine hasDir_iff.mpr ⟨held, ?_⟩
    rw [Node.at?_append, (at?_of_list hproper hdir).1, Option.bind_some, Node.at?_dir_cons,
      if_pos rfl, Node.at?]
  have hshort := hreach.dirs [] name hname hhasDir (isShort_of_list hdir)
  exact Bool.false_ne_true (hlong.symm.trans hshort)

/-- A directory that lies too deep is passed over when its name does not have the extension. -/
theorem scanDir_of_deep_not_hasExtension (hproper : tree.root.HasProperNames) {name : String}
    {held : List (String × Node)} (hdir : tree.list dir = .ok [(name, .dir held)])
    (hlong : isShort (joinPath dir name) = false) (hname : ¬ HasExtension extension name) :
    (scanDir tree dir extension).outcome = .ok [] := by
  have hwalk : Node.IsWalk isShort extension dir [(name, .dir held)] [] :=
    .pass (List.forall_mem_nil _) (fun _ => hlong) hname .nil
  rw [scanDir_of_isWalk hproper hdir hwalk]
  rfl

/-- A scan does not find all files and nothing else: a directory that lies too deep makes it fail
although there is no file at all, and hides the file that another one holds. -/
theorem directories_lie_too_deep :
    ((outerTree [("d.prefs", .dir [])]).root.HasProperNames ∧
      (outerTree [("d.prefs", .dir [])]).list (slashedPath 4090) = .ok [("d.prefs", .dir [])] ∧
      Node.IsWalk (fun _ => true) "prefs" (slashedPath 4090) [("d.prefs", .dir [])] [] ∧
      (scanDir (outerTree [("d.prefs", .dir [])]) (slashedPath 4090) "prefs").outcome =
        .error (.file .nameTooLong) ∧
      ¬ (outerTree [("d.prefs", .dir [])]).ScansAllFiles (slashedPath 4090) "prefs"
        [("d.prefs", .dir [])]) ∧
    (outerTree [("inner", .dir [("a.prefs", .file .empty)])]).root.HasProperNames ∧
      (outerTree [("inner", .dir [("a.prefs", .file .empty)])]).list (slashedPath 4090) =
        .ok [("inner", .dir [("a.prefs", .file .empty)])] ∧
      (outerTree [("inner", .dir [("a.prefs", .file .empty)])]).content?
        ["in", "inner", "a.prefs"] = some .empty ∧
      (scanDir (outerTree [("inner", .dir [("a.prefs", .file .empty)])]) (slashedPath 4090)
        "prefs").outcome = .ok [] := by
  have hproper : (outerTree [("d.prefs", .dir [])]).root.HasProperNames := by
    simp only [outerTree, Node.HasProperNames, Node.EntriesHaveProperNames]
    decide +kernel
  have hproper' : (outerTree
      [("inner", .dir [("a.prefs", .file .empty)])]).root.HasProperNames := by
    simp only [outerTree, Node.HasProperNames, Node.EntriesHaveProperNames]
    decide +kernel
  have hshort : 4089 + 3 < pathLimit := by decide
  have hlist : (outerTree [("d.prefs", .dir [])]).list (slashedPath 4090) = _ :=
    list_slashedPath hshort rfl rfl
  have hlist' : (outerTree [("inner", .dir [("a.prefs", .file .empty)])]).list
      (slashedPath 4090) = _ := list_slashedPath hshort rfl rfl
  have hname : IsFileName "d.prefs" ∧ extension? "d.prefs" = some "prefs" := by decide +kernel
  have hname' : IsFileName "inner" ∧ extension? "inner" = none := by decide +kernel
  have hlong : isShort (joinPath (slashedPath 4090) "d.prefs") = false :=
    (isShort_joinPath_slashedPath hname.1.plain 4089).trans (by decide)
  have hlong' : isShort (joinPath (slashedPath 4090) "inner") = false :=
    (isShort_joinPath_slashedPath hname'.1.plain 4089).trans (by decide)
  have hextension : HasExtension "prefs" "d.prefs" := (hasExtension_iff hname.1.plain).mpr hname.2
  have hother : ¬ HasExtension "prefs" "inner" := by
    simp [hasExtension_iff hname'.1.plain, hname'.2]
  refine ⟨⟨hproper, hlist, .enter (List.forall_mem_nil _) rfl .nil .nil,
    scanDir_of_deep_hasExtension hproper hlist hlong hextension, ?_⟩,
    hproper', hlist', rfl, scanDir_of_deep_not_hasExtension hproper' hlist' hlong' hother⟩
  exact not_scansAllFiles_of_deep hproper hlist hlong hextension

end PreferenceInjector.FileTree
