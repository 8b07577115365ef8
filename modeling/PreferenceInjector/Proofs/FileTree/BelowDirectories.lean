import PreferenceInjector.Proofs.FileTree.Walking

/-!
# Below a directory

A path that continues a listed directory by names leads to what stands there under these names,
unless it is too long: then it leads nowhere, whatever stands there. So a directory is one by its
path just when its path is not too long. What a walk finds are the places where it ends, and what a
scan reads there are the contents of files.
-/

namespace PreferenceInjector

open Declaration (File)

/-- The declarations in a file that has a content, under its path. Nothing is read under a path that
is too long. -/
def declarationsOf (path : String) (content : ByteArray) : Reported File :=
  if isShort path then
    match String.fromUTF8? content with
    | some text => File.ofText path text
    | none => Reported.fail (.file .notText)
  else Reported.fail (.file .nameTooLong)

instance (name : String) : Decidable (IsFileName name) :=
  decidable_of_iff ((name ≠ "" ∧ name ≠ "." ∧ name ≠ ".." ∧ '/' ∉ name.toList) ∧
      name.utf8ByteSize ≤ segmentLimit ∧ '\x00' ∉ name.toList)
    ⟨fun ⟨⟨hempty, hhere, hup, hslash⟩, hshort, hzero⟩ =>
        ⟨⟨hempty, hhere, hup, hslash⟩, hshort, hzero⟩,
      fun ⟨⟨hempty, hhere, hup, hslash⟩, hshort, hzero⟩ =>
        ⟨⟨hempty, hhere, hup, hslash⟩, hshort, hzero⟩⟩

namespace Node

/-- What stands under a name is an entry. -/
theorem mem_of_child? {name : String} {node : Node} {entries : List (String × Node)}
    (h : child? name entries = some node) : (name, node) ∈ entries := by
  induction entries with
  | nil => cases h
  | cons entry rest ih =>
    rw [child?] at h
    split_ifs at h with hname
    · cases h
      rw [← hname]
      exact List.mem_cons_self
    · exact List.mem_cons_of_mem _ (ih h)

/-- Proper names lead to something with proper names. -/
theorem HasProperNames.of_at? {root node : Node} {place : Place} (h : root.HasProperNames)
    (hplace : root.at? place = some node) :
    node.HasProperNames ∧ ∀ name ∈ place, IsFileName name := by
  induction place generalizing root with
  | nil =>
    cases hplace
    exact ⟨h, List.forall_mem_nil _⟩
  | cons name below ih =>
    cases root with
    | file content => cases hplace
    | dir entries =>
      rw [at?] at hplace
      obtain ⟨child, hchild, hbelow⟩ := Option.bind_eq_some_iff.mp hplace
      obtain ⟨hname, hproper⟩ := entriesHaveProperNames_iff.mp h.2 _ (mem_of_child? hchild)
      obtain ⟨hnode, hnames⟩ := ih hproper hbelow
      exact ⟨hnode, List.forall_mem_cons.mpr ⟨hname, hnames⟩⟩

end Node

/-! ### Paths of files -/

variable {names : List String} {dir : String}

/-- Names of files bring no character with code zero into a path. -/
theorem zero_notMem_foldl_joinPath (h : ∀ name ∈ names, IsFileName name)
    (hdir : '\x00' ∉ dir.toList) : '\x00' ∉ (names.foldl joinPath dir).toList := by
  induction names generalizing dir with
  | nil => exact hdir
  | cons name names ih =>
    obtain ⟨hname, hnames⟩ := List.forall_mem_cons.mp h
    refine ih hnames ?_
    rw [joinPath_of_isPlain hname.plain, separator]
    split_ifs <;> simp [hdir, hname.noZero]

/-- Names of files leave the beginning of a path. -/
theorem head?_foldl_joinPath (h : ∀ name ∈ names, IsPlain name) :
    ((names.foldl joinPath dir).toList.head? == some '/') = (dir.toList.head? == some '/') := by
  induction names generalizing dir with
  | nil => rfl
  | cons name names ih =>
    obtain ⟨hname, hnames⟩ := List.forall_mem_cons.mp h
    rw [List.foldl_cons, ih hnames, head?_joinPath hname]

/-- A path that ends in the name of a file asks for no directory. -/
theorem getLast?_joinPath {name : String} (h : IsPlain name) (path : String) :
    (joinPath path name).toList.getLast? ≠ some '/' := by
  obtain ⟨c, rest, hname, -⟩ := h.exists_cons
  rw [joinPath_of_isPlain h, String.toList_append, hname, List.getLast?_append_cons, ← hname]
  intro hslash
  exact h.noSlash (List.mem_of_getLast? hslash)

/-- A path gets no shorter by what is added to it. -/
theorem isShort_of_foldl_joinPath (h : ∀ name ∈ names, IsPlain name)
    (hshort : isShort (names.foldl joinPath dir) = true) : isShort dir = true := by
  induction names generalizing dir with
  | nil => exact hshort
  | cons name names ih =>
    obtain ⟨hname, hnames⟩ := List.forall_mem_cons.mp h
    have hjoined := ih hnames hshort
    rw [isShort, decide_eq_true_iff] at hjoined ⊢
    rw [joinPath_of_isPlain hname, String.utf8ByteSize_append,
      String.utf8ByteSize_append] at hjoined
    omega

/-- A path gets no shorter on the way to its last name. -/
theorem isShort_of_append_eq {above before below : List String} {name : String}
    (hnames : above ++ [name] = before ++ below) (hbelow : below ≠ [])
    (hplain : ∀ name ∈ above, IsPlain name)
    (hshort : isShort (above.foldl joinPath dir) = true) :
    isShort (before.foldl joinPath dir) = true := by
  obtain ⟨rest, last, rfl⟩ := List.eq_nil_or_concat' below |>.resolve_left hbelow
  rw [← List.append_assoc] at hnames
  obtain ⟨rfl, -⟩ := List.append_inj' hnames rfl
  rw [List.foldl_append] at hshort
  exact isShort_of_foldl_joinPath (fun name hname => hplain name (by simp [hname])) hshort

/-- The route of a directory goes on to what lies below it, unless the path gets too long. -/
theorem Route.ofPath_foldl_joinPath {route : Route} (hroute : Route.ofPath dir = .ok route)
    (hnames : ∀ name ∈ names, IsFileName name) (hne : names ≠ []) :
    Route.ofPath (names.foldl joinPath dir) =
      if isShort (names.foldl joinPath dir) then
        .ok ⟨route.fromRoot, route.segments ++ names, false⟩
      else .error .nameTooLong := by
  have hplain : ∀ name ∈ names, IsPlain name := fun name hmem => (hnames name hmem).plain
  have hzero : '\x00' ∉ dir.toList := by
    intro hzero
    rw [Route.ofPath, if_pos (by simpa using hzero)] at hroute
    cases hroute
  obtain ⟨-, rfl⟩ := Route.eq_of_ofPath hroute
  obtain ⟨above, last, rfl⟩ := List.eq_nil_or_concat' names |>.resolve_left hne
  have hlast : IsPlain last := hplain last (by simp)
  have hsegments : filledSegments ((above ++ [last]).foldl joinPath dir) =
      filledSegments dir ++ (above ++ [last]) :=
    foldl_joinPath_eq_append (fun name hmem => filledSegments_joinPath (hplain name hmem)) dir
  have hend : (((above ++ [last]).foldl joinPath dir).toList.getLast? == some '/') = false := by
    rw [beq_eq_false_iff_ne, List.foldl_append]
    exact getLast?_joinPath hlast _
  have hfilled : (above ++ [last]).foldl joinPath dir ≠ "" := by
    intro hempty
    rw [hempty] at hsegments
    exact List.cons_ne_nil _ _ (List.append_eq_nil_iff.mp
      (List.append_eq_nil_iff.mp hsegments.symm).2).2
  have hno : '\x00' ∉ ((above ++ [last]).foldl joinPath dir).toList :=
    zero_notMem_foldl_joinPath hnames hzero
  rw [filledSegments] at hsegments
  rw [Route.ofPath, if_neg (by simpa using hno), if_neg (by simpa using hfilled)]
  cases hshort : isShort ((above ++ [last]).foldl joinPath dir) with
  | false =>
    rw [isShort, decide_eq_false_iff_not, not_lt] at hshort
    rw [if_pos hshort, if_neg Bool.false_ne_true]
  | true =>
    rw [isShort, decide_eq_true_iff, ← not_le] at hshort
    rw [if_neg hshort, if_pos rfl, head?_foldl_joinPath hplain, hsegments, hend]

namespace FileTree

variable {tree other : FileTree} {extension : String} {entries : List (String × Node)}
  {found : List Place} {place : Place}

/-- Names of files are followed from a directory to what stands there. -/
theorem follow_append_eq_ok {start : Place} {segments : List String} {node : Node}
    (hfollow : follow tree.root start segments = .ok place)
    (hnames : ∀ name ∈ names, IsFileName name)
    (hthere : tree.root.at? (place ++ names) = some node) :
    follow tree.root start (segments ++ names) = .ok (place ++ names) := by
  induction names using List.reverseRecOn generalizing node with
  | nil => rwa [List.append_nil, List.append_nil]
  | append_singleton above last ih =>
    rw [← List.append_assoc, Node.at?_append] at hthere
    obtain ⟨holder, hholder, hlast⟩ := Option.bind_eq_some_iff.mp hthere
    have habove := ih (fun name hmem => hnames name (by simp [hmem])) hholder
    have hname : IsFileName last := hnames last (by simp)
    rw [← List.append_assoc, ← List.append_assoc, follow_concat_eq_ok]
    refine ⟨place ++ above, habove, step_eq_ok_iff.mpr ⟨?_, ?_, .inr (.inr ⟨?_, ?_⟩)⟩⟩
    · cases holder with
      | file content => cases hlast
      | dir held => exact hasDir_iff.mpr ⟨held, hholder⟩
    · rw [Place.enter, if_neg hname.plain.notHere, if_neg hname.plain.notUp]
    · exact Nat.not_lt.mpr hname.short
    · rw [kind?_ne_none_iff, Node.at?_append, hholder, Option.bind_some, hlast]
      rfl

/-- The names on the way to what stands below a directory are names of files. -/
theorem isFileName_of_at? (hproper : tree.root.HasProperNames) {node : Node}
    (hthere : tree.root.at? (place ++ names) = some node) : ∀ name ∈ names, IsFileName name :=
  fun name hmem => (hproper.of_at? hthere).2 name (List.mem_append_right _ hmem)

/-- The entries of a listed directory stand at its place, and have proper names. -/
theorem at?_of_list (hproper : tree.root.HasProperNames) (hdir : tree.list dir = .ok entries) :
    tree.root.at? (placeOf tree.cwd dir) = some (.dir entries) ∧
      (Node.dir entries).HasProperNames := by
  obtain ⟨route, place, hleads, hentries⟩ := find_eq_dir_iff.mp (list_eq_ok.mp hdir)
  obtain rfl := hleads.place_eq
  exact ⟨hentries, (hproper.of_at? hentries).1⟩

/-- The path of a listed directory is not too long. -/
theorem isShort_of_list (hdir : tree.list dir = .ok entries) : isShort dir = true := by
  obtain ⟨route, place, hleads, -⟩ := find_eq_dir_iff.mp (list_eq_ok.mp hdir)
  exact Route.isShort_of_ofPath hleads.1

/-- A path below a listed directory leads to what stands there, unless it is too long. -/
theorem leadsTo_foldl_joinPath (hdir : tree.list dir = .ok entries)
    (hnames : ∀ name ∈ names, IsFileName name) (hne : names ≠ []) {node : Node}
    (hthere : tree.root.at? (placeOf tree.cwd dir ++ names) = some node)
    (hshort : isShort (names.foldl joinPath dir) = true) : ∃ route : Route,
      route.toDirectory = false ∧
        tree.LeadsTo (names.foldl joinPath dir) route (placeOf tree.cwd dir ++ names) := by
  obtain ⟨route, place, hleads, -⟩ := find_eq_dir_iff.mp (list_eq_ok.mp hdir)
  obtain rfl := hleads.place_eq
  have hroute := Route.ofPath_foldl_joinPath hleads.1 hnames hne
  rw [if_pos hshort] at hroute
  exact ⟨_, rfl, hroute, follow_append_eq_ok hleads.2 hnames hthere⟩

/-- The path of a directory below a listed one leads to a directory, unless it is too long. -/
theorem isDir_foldl_joinPath (hproper : tree.root.HasProperNames)
    (hdir : tree.list dir = .ok entries) {held : List (String × Node)}
    (hthere : tree.root.at? (placeOf tree.cwd dir ++ names) = some (.dir held)) :
    tree.isDir (names.foldl joinPath dir) = isShort (names.foldl joinPath dir) := by
  rw [Bool.eq_iff_iff, isDir_iff]
  constructor
  · intro h
    obtain ⟨route, place, hleads, -⟩ := h
    exact Route.isShort_of_ofPath hleads.1
  · intro hshort
    rcases eq_or_ne names [] with rfl | hne
    · obtain ⟨route, place, hleads, hentries⟩ := find_eq_dir_iff.mp (list_eq_ok.mp hdir)
      exact ⟨route, place, hleads, hasDir_iff.mpr ⟨_, hentries⟩⟩
    · obtain ⟨route, -, hleads⟩ :=
        leadsTo_foldl_joinPath hdir (isFileName_of_at? hproper hthere) hne hthere hshort
      exact ⟨route, _, hleads, hasDir_iff.mpr ⟨_, hthere⟩⟩

/-- Nothing is read under a path below a directory that is too long. -/
theorem scanFile_of_long (hdir : tree.list dir = .ok entries)
    (hnames : ∀ name ∈ names, IsFileName name) (hne : names ≠ [])
    (hlong : isShort (names.foldl joinPath dir) = false) :
    scanFile tree (names.foldl joinPath dir) = Reported.fail (.file .nameTooLong) := by
  obtain ⟨route, place, hleads, -⟩ := find_eq_dir_iff.mp (list_eq_ok.mp hdir)
  have hroute := Route.ofPath_foldl_joinPath hleads.1 hnames hne
  rw [hlong, if_neg Bool.false_ne_true] at hroute
  have hreadText : tree.readText (names.foldl joinPath dir) = .error .nameTooLong := by
    rw [readText, read, find, hroute]
    rfl
  rw [scanFile, hreadText]

/-- The declarations in a file below a directory are those of its content. -/
theorem scanFile_foldl_joinPath (hproper : tree.root.HasProperNames)
    (hdir : tree.list dir = .ok entries) (hne : names ≠ []) {content : ByteArray}
    (hcontent : tree.content? (placeOf tree.cwd dir ++ names) = some content) :
    scanFile tree (names.foldl joinPath dir) =
      declarationsOf (names.foldl joinPath dir) content := by
  have hthere := content?_eq_some_iff.mp hcontent
  have hnames := isFileName_of_at? hproper hthere
  rw [declarationsOf]
  split_ifs with hshort
  · obtain ⟨route, hfile, hleads⟩ := leadsTo_foldl_joinPath hdir hnames hne hthere hshort
    have hread : tree.read (names.foldl joinPath dir) = .ok content := by
      rw [read_eq_ok, ← hleads.place_eq]
      exact ⟨route, hleads, hfile, hcontent⟩
    have hreadText : tree.readText (names.foldl joinPath dir) =
        match String.fromUTF8? content with
        | some text => .ok text
        | none => .error .notText := by
      rw [readText, hread]
      rfl
    rw [scanFile, hreadText]
    cases String.fromUTF8? content <;> rfl
  · exact scanFile_of_long hdir hnames hne (Bool.not_eq_true _ ▸ hshort)

/-! ### What is taken for a file -/

/-- Something below a directory is taken for a file: it stands in directories that the test tells by
their paths, and is none of these itself. -/
structure IsTaken (tree : FileTree) (isDir : String → Bool) (dir : String) (names : Place) :
    Prop where
  stands : tree.kind? (placeOf tree.cwd dir ++ names) ≠ none
  stops : tree.HasDir (placeOf tree.cwd dir ++ names) → isDir (names.foldl joinPath dir) = false
  through : ∀ above below, names = above ++ below → above ≠ [] → below ≠ [] →
    isDir (above.foldl joinPath dir) = true

variable {isDir : String → Bool}

/-- A walk finds what is taken for a file and has the extension. -/
theorem mem_of_isWalk (hproper : tree.root.HasProperNames) (hdir : tree.list dir = .ok entries)
    (hwalk : Node.IsWalk isDir extension dir entries found) (names : Place) :
    names ∈ found ↔ Place.HasExtension extension names ∧ tree.IsTaken isDir dir names := by
  obtain ⟨hthere, hentries⟩ := at?_of_list hproper hdir
  have hbelow : tree.root.at? (placeOf tree.cwd dir ++ names) = (Node.dir entries).at? names := by
    rw [Node.at?_append, hthere, Option.bind_some]
  rw [hwalk.mem_iff hentries, ← hbelow]
  refine and_congr_right fun _ => ?_
  constructor
  · rintro ⟨node, hnode, hend⟩
    refine ⟨kind?_ne_none_iff.mpr (by rw [hnode]; rfl), fun hhasDir => ?_, hend.through⟩
    obtain ⟨held, hheld⟩ := hasDir_iff.mp hhasDir
    cases hnode.symm.trans hheld
    exact hend.stops rfl
  · rintro ⟨hstands, hstops, hthrough⟩
    obtain ⟨node, hnode⟩ := Option.isSome_iff_exists.mp (kind?_ne_none_iff.mp hstands)
    refine ⟨node, hnode, fun hisDir => hstops ?_, hthrough⟩
    cases node with
    | file content => cases hisDir
    | dir held => exact hasDir_iff.mpr ⟨held, hnode⟩

/-- The same is taken for a file when two tests agree on the paths of directories. -/
theorem IsTaken.congr {isDir' : String → Bool} {names : Place}
    (htests : ∀ names held,
      tree.root.at? (placeOf tree.cwd dir ++ names) = some (.dir held) →
        isDir (names.foldl joinPath dir) = isDir' (names.foldl joinPath dir))
    (h : tree.IsTaken isDir dir names) : tree.IsTaken isDir' dir names := by
  refine ⟨h.stands, fun hhasDir => ?_, fun above below hnames habove hbelow => ?_⟩
  · obtain ⟨held, hheld⟩ := hasDir_iff.mp hhasDir
    rw [← htests names held hheld]
    exact h.stops hhasDir
  · -- A directory stands where something stands below it.
    obtain ⟨first, rest, rfl⟩ := List.exists_cons_of_ne_nil hbelow
    have hstands := kind?_ne_none_iff.mp h.stands
    rw [hnames, ← List.append_assoc, Node.at?_append] at hstands
    obtain ⟨node, hnode⟩ := Option.isSome_iff_exists.mp hstands
    obtain ⟨holder, hholder, hlast⟩ := Option.bind_eq_some_iff.mp hnode
    cases holder with
    | file content => cases hlast
    | dir held =>
      rw [← htests above held hholder]
      exact h.through above (first :: rest) hnames habove hbelow

/-- Below a listed directory, what the paths of directories lead to depends on their length. -/
theorem isTaken_isDir_iff (hproper : tree.root.HasProperNames)
    (hdir : tree.list dir = .ok entries) {names : Place} :
    tree.IsTaken tree.isDir dir names ↔ tree.IsTaken isShort dir names :=
  ⟨IsTaken.congr fun _ _ hthere => isDir_foldl_joinPath hproper hdir hthere,
    IsTaken.congr fun _ _ hthere => (isDir_foldl_joinPath hproper hdir hthere).symm⟩

/-- If every directory is walked through, none is taken for a file. -/
theorem IsTaken.not_hasDir {names : Place} (h : tree.IsTaken (fun _ => true) dir names) :
    ¬ tree.HasDir (placeOf tree.cwd dir ++ names) :=
  fun hhasDir => Bool.false_ne_true (h.stops hhasDir).symm

/-- If every directory is walked through, just the files are taken for files. -/
theorem isTaken_true_iff {names : Place} : tree.IsTaken (fun _ => true) dir names ↔
    ∃ content, tree.content? (placeOf tree.cwd dir ++ names) = some content := by
  constructor
  · intro h
    cases hkind : tree.kind? (placeOf tree.cwd dir ++ names) with
    | none => exact (h.stands hkind).elim
    | some label =>
      cases label with
      | none => exact (h.not_hasDir hkind).elim
      | some content => exact ⟨content, by rw [content?, hkind]; rfl⟩
  · rintro ⟨content, hcontent⟩
    refine ⟨fun hnone => ?_, fun hhasDir => ?_, fun _ _ _ _ _ => rfl⟩
    · rw [content?, hnone] at hcontent
      cases hcontent
    · rw [content?, hhasDir] at hcontent
      cases hcontent

/-- Two walks that find the same find it in the same order. -/
theorem isWalk_eq_of_mem_iff {isDir' : String → Bool} {others : List (String × Node)}
    {found' : List Place} (h : Node.IsWalk isDir extension dir entries found)
    (h' : Node.IsWalk isDir' extension dir others found')
    (hmem : ∀ names, names ∈ found ↔ names ∈ found') : found = found' := by
  have hperm : found.Perm found' := by
    rw [List.perm_ext_iff_of_nodup (h.pairwise.imp ne_of_lt) (h'.pairwise.imp ne_of_lt)]
    exact hmem
  exact List.Perm.eq_of_pairwise (fun _ _ _ _ hlt hgt => (lt_asymm hlt hgt).elim) h.pairwise
    h'.pairwise hperm

end FileTree

end PreferenceInjector
