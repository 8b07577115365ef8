import PreferenceInjector.Proofs.FileTree.Operations
import PreferenceInjector.Proofs.FileTree.PathTexts

/-!
# What paths lead to

When a path can be read or listed, and that it still can be once more stands in the tree. A path
that names a file ends in the name of that file, so a file is found under no other last segment
than its own name.
-/

namespace PreferenceInjector

/-! ### Last segments -/

/-- The last piece of a text that does not end in the separator is its end. -/
theorem exists_getLast?_pieces {sep : Char} {text : List Char} (hne : text ≠ [])
    (hlast : text.getLast? ≠ some sep) :
    ∃ piece, (pieces sep text).getLast? = some piece ∧ piece ≠ [] ∧ piece <:+ text := by
  by_cases hsep : sep ∈ text
  · obtain ⟨before, after, htext, hafter⟩ := exists_eq_append_of_mem hsep
    have hpieces : pieces sep text = pieces sep before ++ [after] := by
      rw [htext, pieces_append_cons, pieces_of_notMem hafter]
    refine ⟨after, by rw [hpieces, List.getLast?_concat], ?_, ?_⟩
    · rintro rfl
      exact hlast (by rw [htext, List.getLast?_append_cons, List.getLast?_singleton])
    · exact ⟨before ++ [sep], by rw [htext, List.append_assoc, List.singleton_append]⟩
  · exact ⟨text, by rw [pieces_of_notMem hsep, List.getLast?_singleton], hne, List.suffix_refl text⟩

/-- A route tells how its path begins and ends, and its segments. -/
theorem Route.eq_of_ofPath {path : String} {route : Route} (h : Route.ofPath path = .ok route) :
    path ≠ "" ∧ route = {
      fromRoot := path.toList.head? == some '/'
      segments := filledSegments path
      toDirectory := path.toList.getLast? == some '/' } := by
  rw [Route.ofPath] at h
  split_ifs at h with hzero hempty hlong
  cases h
  exact ⟨by simpa using hempty, rfl⟩

/-- A path that has a route is not too long. -/
theorem Route.isShort_of_ofPath {path : String} {route : Route}
    (h : Route.ofPath path = .ok route) : isShort path = true := by
  rw [isShort, decide_eq_true_iff, ← Nat.not_le]
  intro hlong
  rw [Route.ofPath, if_pos hlong] at h
  split_ifs at h

/-- The last segment of a path that asks for no directory is its end. -/
theorem Route.exists_last {path : String} {route : Route} (h : Route.ofPath path = .ok route)
    (hfile : route.toDirectory = false) :
    ∃ last, route.segments.getLast? = some last ∧ last.toList <:+ path.toList := by
  obtain ⟨hne, rfl⟩ := Route.eq_of_ofPath h
  have hnotEmpty : path.toList ≠ [] := by simpa using hne
  have hend : path.toList.getLast? ≠ some '/' := by simpa using hfile
  obtain ⟨piece, hpiece, hfilled, hsuffix⟩ := exists_getLast?_pieces hnotEmpty hend
  refine ⟨String.ofList piece, ?_, by rwa [String.toList_ofList]⟩
  obtain ⟨before, hbefore⟩ := List.getLast?_eq_some_iff.mp hpiece
  have hkept : [String.ofList piece].filter (! ·.isEmpty) = [String.ofList piece] := by
    simp [hfilled]
  change (filledSegments path).getLast? = _
  rw [filledSegments, splitAt, hbefore, List.map_append, List.filter_append, List.map_singleton,
    hkept, List.getLast?_concat]

namespace FileTree

variable {tree after : FileTree} {path : String} {place : Place} {content : ByteArray}

/-! ### Steps -/

/-- A directory stands in a directory, or is the root. -/
theorem HasDir.dropLast (h : tree.HasDir place) : tree.HasDir place.dropLast := by
  rcases List.eq_nil_or_concat' place with rfl | ⟨above, name, rfl⟩
  · exact h
  · rw [List.dropLast_concat]
    obtain ⟨entries, hentries⟩ := hasDir_iff.mp h
    rw [Node.at?_append] at hentries
    obtain ⟨node, hnode, hbelow⟩ := Option.bind_eq_some_iff.mp hentries
    cases node with
    | file content => cases hbelow
    | dir held => exact hasDir_iff.mpr ⟨held, hnode⟩

/-- Something stands at a place of a tree when it has a kind. -/
theorem kind?_ne_none_iff : tree.kind? place ≠ none ↔ (tree.root.at? place).isSome = true := by
  rw [FileTree.kind?, Node.kind?, ← Option.isSome_iff_ne_none, Option.isSome_map]

/-- From a directory one can stay, go up, or go to what stands in it under a name that is not too
long. -/
theorem step_eq_ok_iff {segment : String} {next : Place} :
    step tree.root place segment = .ok next ↔
      tree.HasDir place ∧ next = place.enter segment ∧ (segment = "." ∨ segment = ".." ∨
        ¬ segmentLimit < segment.utf8ByteSize ∧ tree.kind? (place ++ [segment]) ≠ none) := by
  rw [kind?_ne_none_iff]
  by_cases hdir : tree.HasDir place
  · obtain ⟨entries, hentries⟩ := hasDir_iff.mp hdir
    have hok : ∀ other, (Except.ok other : Except Fault Place) = .ok next ↔ next = other := by
      simp [eq_comm]
    simp only [hdir, true_and, step, hentries, at?_append_of_dir hentries, Place.enter]
    split_ifs with hhere hup hlong hchild
    · simp only [hok, hhere, true_or, and_true]
    · simp only [hok, hup, true_or, or_true, and_true]
    · simp [hhere, hup, hlong]
    · simp [hok, hhere, hup, hlong, hchild]
    · simp [hhere, hup, hchild]
  · constructor
    · intro h
      exact (hdir (step_eq_ok h).1).elim
    · intro h
      exact (hdir h.1).elim

/-- The last segment is followed after the others. -/
theorem follow_concat_eq_ok {segments : List String} {last : String} {next : Place} :
    follow tree.root place (segments ++ [last]) = .ok next ↔
      ∃ above, follow tree.root place segments = .ok above ∧
        step tree.root above last = .ok next := by
  induction segments generalizing place with
  | nil =>
    rw [List.nil_append, follow_cons_eq_ok]
    simp [follow]
  | cons segment segments ih =>
    simp only [List.cons_append, follow_cons_eq_ok, ih]
    constructor
    · intro h
      obtain ⟨first, hfirst, above, habove, hstep⟩ := h
      exact ⟨above, ⟨first, hfirst, habove⟩, hstep⟩
    · intro h
      obtain ⟨above, ⟨first, hfirst, habove⟩, hstep⟩ := h
      exact ⟨first, hfirst, above, habove, hstep⟩

/-! ### Trees with more in them -/

/-- Whatever stands somewhere in the tree is followed by something in the same place, and
directories by directories. -/
structure IsKeptIn (tree after : FileTree) : Prop where
  cwd : after.cwd = tree.cwd
  hasDir : ∀ place, tree.HasDir place → after.HasDir place
  stands : ∀ place, tree.kind? place ≠ none → after.kind? place ≠ none

/-- A tree is kept in itself. -/
theorem IsKeptIn.refl (tree : FileTree) : tree.IsKeptIn tree := ⟨rfl, fun _ => id, fun _ => id⟩

/-- What is kept is kept further. -/
theorem IsKeptIn.trans {between : FileTree} (h : tree.IsKeptIn between)
    (h' : between.IsKeptIn after) : tree.IsKeptIn after :=
  ⟨h'.cwd.trans h.cwd, fun place hplace => h'.hasDir place (h.hasDir place hplace),
    fun place hplace => h'.stands place (h.stands place hplace)⟩

/-- A change that puts something in a place keeps the rest. -/
theorem Sets.isKeptIn {kind : Option ByteArray} (h : tree.Sets place (some kind) after) :
    tree.IsKeptIn after where
  cwd := h.cwd
  hasDir _ := h.hasDir
  stands other hother := by
    rw [h.kind?]
    by_cases hplace : other = place
    · rw [hplace, Function.update_self]
      exact Option.some_ne_none kind
    · rwa [Function.update_of_ne hplace]

/-- A new directory leaves everything in its place. -/
theorem isKeptIn_of_makeDir (h : tree.makeDir path = .ok after) : tree.IsKeptIn after := by
  obtain ⟨place, -, hsets⟩ := makeDir_eq_ok h
  exact hsets.isKeptIn

/-- A written file leaves something in every place. -/
theorem isKeptIn_of_write (h : tree.write path content = .ok after) : tree.IsKeptIn after :=
  (write_eq_ok h).1.isKeptIn

/-- Segments lead to the same place where everything is kept. -/
theorem IsKeptIn.follow (h : tree.IsKeptIn after) {segments : List String} {last : Place}
    (hfollow : FileTree.follow tree.root place segments = .ok last) :
    FileTree.follow after.root place segments = .ok last := by
  induction segments generalizing place with
  | nil => exact hfollow
  | cons segment segments ih =>
    obtain ⟨next, hstep, hrest⟩ := follow_cons_eq_ok.mp hfollow
    obtain ⟨hdir, hnext, hthere⟩ := step_eq_ok_iff.mp hstep
    refine follow_cons_eq_ok.mpr ⟨next, step_eq_ok_iff.mpr ⟨h.hasDir _ hdir, hnext, ?_⟩, ih hrest⟩
    exact hthere.imp_right (.imp_right (.imp_right (h.stands _)))

/-! ### Directories and files under paths -/

/-- A path leads to a place when its segments can be followed. -/
def LeadsTo (tree : FileTree) (path : String) (route : Route) (place : Place) : Prop :=
  Route.ofPath path = .ok route ∧ follow tree.root (tree.start route) route.segments = .ok place

/-- The place that a path leads to can be read off the path. -/
theorem LeadsTo.place_eq {route : Route} (h : tree.LeadsTo path route place) :
    place = placeOf tree.cwd path := by
  obtain ⟨hroute, hfollow⟩ := h
  obtain ⟨-, rfl⟩ := Route.eq_of_ofPath hroute
  exact follow_eq_ok hfollow

/-- A path leads to the same place where everything is kept. -/
theorem IsKeptIn.leadsTo (h : tree.IsKeptIn after) {route : Route}
    (hleads : tree.LeadsTo path route place) : after.LeadsTo path route place := by
  refine ⟨hleads.1, ?_⟩
  rw [start, h.cwd]
  exact h.follow hleads.2

/-- A directory is found at the end of a path that leads to it. -/
theorem find_eq_dir_iff {entries : List (String × Node)} :
    tree.find path = .ok (.dir entries) ↔
      ∃ route place, tree.LeadsTo path route place ∧
        tree.root.at? place = some (.dir entries) := by
  simp only [find, except_bind_eq_ok, LeadsTo]
  constructor
  · intro h
    obtain ⟨route, hroute, place, hfollow, hnode⟩ := h
    refine ⟨route, place, ⟨hroute, hfollow⟩, ?_⟩
    rcases hfound : tree.root.at? place with _ | content | held
    · simp [hfound] at hnode
    · simp only [hfound] at hnode
      split_ifs at hnode
      cases hnode
    · simp only [hfound] at hnode
      cases hnode
      rfl
  · intro h
    obtain ⟨route, place, ⟨hroute, hfollow⟩, hnode⟩ := h
    exact ⟨route, hroute, place, hfollow, by rw [hnode]⟩

/-- A file is found at the end of a path that leads to it and asks for no directory. -/
theorem find_eq_file_iff :
    tree.find path = .ok (.file content) ↔
      ∃ route place, tree.LeadsTo path route place ∧ route.toDirectory = false ∧
        tree.root.at? place = some (.file content) := by
  simp only [find, except_bind_eq_ok, LeadsTo]
  constructor
  · intro h
    obtain ⟨route, hroute, place, hfollow, hnode⟩ := h
    refine ⟨route, place, ⟨hroute, hfollow⟩, ?_⟩
    rcases hfound : tree.root.at? place with _ | held | entries
    · simp [hfound] at hnode
    · simp only [hfound] at hnode
      split_ifs at hnode with hfile
      cases hnode
      exact ⟨by simpa using hfile, rfl⟩
    · simp [hfound] at hnode
  · intro h
    obtain ⟨route, place, ⟨hroute, hfollow⟩, hfile, hnode⟩ := h
    exact ⟨route, hroute, place, hfollow, by simp [hnode, hfile]⟩

/-- The entries of a directory are listed. -/
theorem list_eq_ok {entries : List (String × Node)} :
    tree.list path = .ok entries ↔ tree.find path = .ok (.dir entries) := by
  rw [list, except_bind_eq_ok]
  constructor
  · intro h
    obtain ⟨node, hnode, hentries⟩ := h
    cases node with
    | file content => cases hentries
    | dir held =>
      cases hentries
      exact hnode
  · intro h
    exact ⟨_, h, rfl⟩

/-- There is a directory where a path leads to one. -/
theorem isDir_iff :
    tree.isDir path = true ↔ ∃ route place, tree.LeadsTo path route place ∧ tree.HasDir place := by
  have hfind : tree.isDir path = true ↔ ∃ entries, tree.find path = .ok (.dir entries) := by
    rw [isDir]
    rcases tree.find path with fault | content | entries
    · simp
    · simp [Node.isDir]
    · simp [Node.isDir]
  simp only [hfind, find_eq_dir_iff, hasDir_iff]
  constructor
  · intro h
    obtain ⟨entries, route, place, hleads, hentries⟩ := h
    exact ⟨route, place, hleads, entries, hentries⟩
  · intro h
    obtain ⟨route, place, hleads, entries, hentries⟩ := h
    exact ⟨entries, route, place, hleads, hentries⟩

/-- Directories stay under their paths. -/
theorem IsKeptIn.isDir (h : tree.IsKeptIn after) (hdir : tree.isDir path = true) :
    after.isDir path = true := by
  obtain ⟨route, place, hleads, hplace⟩ := isDir_iff.mp hdir
  exact isDir_iff.mpr ⟨route, place, h.leadsTo hleads, h.hasDir place hplace⟩

/-- There is a file at a place when it has a content. -/
theorem content?_eq_some_iff :
    tree.content? place = some content ↔ tree.root.at? place = some (.file content) := by
  rw [FileTree.content?, FileTree.kind?, Node.kind?]
  rcases tree.root.at? place with _ | held | entries
  · simp
  · simp [Node.label]
  · simp [Node.label]

/-- A file is read where a path that asks for no directory leads to it. -/
theorem read_eq_ok :
    tree.read path = .ok content ↔
      ∃ route, tree.LeadsTo path route (placeOf tree.cwd path) ∧ route.toDirectory = false ∧
        tree.content? (placeOf tree.cwd path) = some content := by
  have hfind : tree.read path = .ok content ↔ tree.find path = .ok (.file content) := by
    rw [read, except_bind_eq_ok]
    constructor
    · intro h
      obtain ⟨node, hnode, hcontent⟩ := h
      cases node with
      | dir entries => cases hcontent
      | file held =>
        cases hcontent
        exact hnode
    · intro h
      exact ⟨_, h, rfl⟩
  rw [hfind, find_eq_file_iff]
  constructor
  · intro h
    obtain ⟨route, place, hleads, hfile, hcontent⟩ := h
    obtain rfl := hleads.place_eq
    exact ⟨route, hleads, hfile, content?_eq_some_iff.mpr hcontent⟩
  · intro h
    obtain ⟨route, hleads, hfile, hcontent⟩ := h
    exact ⟨route, _, hleads, hfile, content?_eq_some_iff.mp hcontent⟩

/-- A file is still read under its path where everything is kept and the file is not changed. -/
theorem IsKeptIn.read (h : tree.IsKeptIn after) (hread : tree.read path = .ok content)
    (hsame : after.content? (placeOf tree.cwd path) = tree.content? (placeOf tree.cwd path)) :
    after.read path = .ok content := by
  obtain ⟨route, hleads, hfile, hcontent⟩ := read_eq_ok.mp hread
  rw [read_eq_ok, h.cwd, hsame]
  exact ⟨route, h.leadsTo hleads, hfile, hcontent⟩

/-- A path that names something leads to it. -/
theorem Names.leadsTo {route : Route} {above : Place} {name : String}
    (h : tree.Names route above name) (hroute : Route.ofPath path = .ok route)
    (hthere : tree.kind? (above ++ [name]) ≠ none) :
    tree.LeadsTo path route (above ++ [name]) := by
  refine ⟨hroute, ?_⟩
  have henter : above ++ [name] = above.enter name := by
    rw [Place.enter, if_neg h.notHere, if_neg h.notUp]
  rw [← List.dropLast_append_getLast? name h.ends, follow_concat_eq_ok]
  exact ⟨above, h.leads, step_eq_ok_iff.mpr ⟨h.hasDir, henter, .inr (.inr ⟨h.short, hthere⟩)⟩⟩

/-- A directory that is made under a path of segments is named by the last one. -/
theorem getLast?_of_makeDir {fromRoot : Bool} {segments : List String}
    (hfilled : ∀ segment ∈ segments, IsFilled segment)
    (h : tree.makeDir (pathText fromRoot segments) = .ok after) :
    ∃ above name, segments.getLast? = some name ∧
      placeOf tree.cwd (pathText fromRoot segments) = above ++ [name] := by
  obtain ⟨route, above, name, hroute, hnames, -⟩ := names_of_makeDir h
  refine ⟨above, name, ?_, (hnames.place_eq hroute).symm⟩
  obtain ⟨-, rfl⟩ := Route.eq_of_ofPath hroute
  rw [← filledSegments_pathText hfilled fromRoot]
  exact hnames.ends

/-- A file under a path that names it can be read. -/
theorem Reaches.read (h : tree.Reaches path)
    (hcontent : tree.content? (placeOf tree.cwd path) = some content) :
    tree.read path = .ok content := by
  obtain ⟨route, above, name, hroute, hfile, hnames⟩ := h
  refine read_eq_ok.mpr ⟨route, ?_, hfile, hcontent⟩
  rw [← hnames.place_eq hroute] at hcontent ⊢
  apply hnames.leadsTo hroute
  intro hnone
  rw [FileTree.content?, hnone] at hcontent
  cases hcontent

/-- The place of a file that is read ends in the last segment of the path. -/
theorem exists_name_of_read (h : tree.read path = .ok content) :
    ∃ above name, placeOf tree.cwd path = above ++ [name] ∧ name.toList <:+ path.toList := by
  obtain ⟨route, hleads, hfile, hcontent⟩ := read_eq_ok.mp h
  obtain ⟨hroute, hfollow⟩ := hleads
  obtain ⟨last, hlast, hsuffix⟩ := Route.exists_last hroute hfile
  rw [← List.dropLast_append_getLast? last hlast, follow_concat_eq_ok] at hfollow
  obtain ⟨above, -, hstep⟩ := hfollow
  obtain ⟨hdir, hplace, -⟩ := step_eq_ok_iff.mp hstep
  -- The dot segments lead to directories.
  have hnotDir : ¬ tree.HasDir (placeOf tree.cwd path) := by
    intro hfound
    rw [FileTree.content?, hfound] at hcontent
    cases hcontent
  rw [Place.enter] at hplace
  split_ifs at hplace with hhere hup
  · rw [hplace] at hnotDir
    exact (hnotDir hdir).elim
  · rw [hplace] at hnotDir
    exact (hnotDir hdir.dropLast).elim
  · exact ⟨above, last, hplace, hsuffix⟩

end FileTree

end PreferenceInjector
