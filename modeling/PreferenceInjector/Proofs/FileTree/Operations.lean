import Mathlib.Data.List.Basic
import Mathlib.Tactic.SplitIfs
import PreferenceInjector.Proofs.FileTree.Places
import PreferenceInjector.Proofs.Reported

/-!
# What file operations change

A path is followed through directories only, and the place that it leads to can be read off its
segments. An operation that succeeds changes what stands at one place. No operation takes a
directory away, so a path that names a file keeps doing so, and a file under it can be removed.
-/

namespace PreferenceInjector.FileTree

variable {tree after : FileTree} {path : String} {place : Place} {route : Route}

/-! ### Following paths -/

/-- A segment leads from a directory to the place that it names. -/
theorem step_eq_ok {segment : String} {next : Place} (h : step tree.root place segment = .ok next) :
    tree.HasDir place ∧ next = place.enter segment := by
  rw [hasDir_iff]
  rw [step] at h
  cases hnode : tree.root.at? place with
  | none => simp [hnode] at h
  | some node =>
    cases node with
    | file content => simp [hnode] at h
    | dir entries =>
      refine ⟨⟨entries, rfl⟩, ?_⟩
      simp only [hnode] at h
      rw [Place.enter]
      split_ifs at h ⊢ <;> cases h <;> rfl

/-- Segments are followed one after the other. -/
theorem follow_cons_eq_ok {root : Node} {segment : String} {segments : List String}
    {last : Place} : follow root place (segment :: segments) = .ok last ↔
      ∃ next, step root place segment = .ok next ∧ follow root next segments = .ok last := by
  rw [follow, except_bind_eq_ok]

/-- Segments lead to the place that they name. -/
theorem follow_eq_ok {segments : List String} {last : Place}
    (h : follow tree.root place segments = .ok last) : last = segments.foldl Place.enter place := by
  induction segments generalizing place with
  | nil =>
    cases h
    rfl
  | cons segment segments ih =>
    obtain ⟨next, hstep, hfollow⟩ := follow_cons_eq_ok.mp h
    rw [List.foldl_cons, ← (step_eq_ok hstep).2]
    exact ih hfollow

/-- Segments that lead to a directory start at one. -/
theorem HasDir.of_follow {segments : List String} {last : Place} (hlast : tree.HasDir last)
    (h : follow tree.root place segments = .ok last) : tree.HasDir place := by
  cases segments with
  | nil =>
    cases h
    exact hlast
  | cons segment segments =>
    obtain ⟨next, hstep, -⟩ := follow_cons_eq_ok.mp h
    exact (step_eq_ok hstep).1

section Kept

variable (hkept : ∀ place, tree.HasDir place → after.HasDir place)
include hkept

/-- A segment that leads to a directory still does so in a tree that keeps the directories. -/
theorem step_of_kept {segment : String} {next : Place} (hnext : tree.HasDir next)
    (h : step tree.root place segment = .ok next) : step after.root place segment = .ok next := by
  obtain ⟨hplace, -⟩ := step_eq_ok h
  obtain ⟨entries, hentries⟩ := hasDir_iff.mp hplace
  obtain ⟨entries', hentries'⟩ := hasDir_iff.mp (hkept _ hplace)
  simp only [step, hentries] at h
  simp only [step, hentries']
  by_cases hhere : segment = "."
  · simpa [hhere] using h
  by_cases hup : segment = ".."
  · simpa [hhere, hup] using h
  by_cases hlong : segmentLimit < segment.utf8ByteSize
  · simp [hhere, hup, hlong] at h
  by_cases hchild : (Node.child? segment entries).isSome = true
  · simp only [hhere, hup, hlong, hchild, if_true, if_false] at h ⊢
    cases h
    obtain ⟨below, hbelow⟩ := hasDir_iff.mp (hkept _ hnext)
    rw [at?_append_of_dir hentries'] at hbelow
    rw [hbelow]
    rfl
  · simp [hhere, hup, hlong, hchild] at h

/-- Segments that lead to a directory still do so in a tree that keeps the directories. -/
theorem follow_of_kept {segments : List String} {last : Place} (hlast : tree.HasDir last)
    (h : follow tree.root place segments = .ok last) :
    follow after.root place segments = .ok last := by
  induction segments generalizing place with
  | nil => exact h
  | cons segment segments ih =>
    obtain ⟨next, hstep, hfollow⟩ := follow_cons_eq_ok.mp h
    have hnext := hlast.of_follow hfollow
    exact follow_cons_eq_ok.mpr ⟨next, step_of_kept hkept hnext hstep, ih hfollow⟩

end Kept

/-! ### Targets -/

/-- The last segment of a route is a name in a directory, which the others lead to. -/
structure Names (tree : FileTree) (route : Route) (above : Place) (name : String) : Prop where
  ends : route.segments.getLast? = some name
  leads : follow tree.root (tree.start route) route.segments.dropLast = .ok above
  hasDir : tree.HasDir above
  notHere : name ≠ "."
  notUp : name ≠ ".."
  short : ¬ segmentLimit < name.utf8ByteSize

/-- A route that names something finds what stands there. -/
theorem Names.target {above : Place} {name : String} (h : tree.Names route above name) :
    tree.target route = .ok (.name (above ++ [name]) (tree.root.at? (above ++ [name]))) := by
  obtain ⟨entries, hentries⟩ := hasDir_iff.mp h.hasDir
  rw [FileTree.target, h.ends]
  simp only [h.leads]
  simp [bind, Except.bind, hentries, h.notHere, h.notUp, h.short, at?_append_of_dir hentries]

/-- What a route finds is named by it. -/
theorem names_of_target {found : Option Node}
    (h : tree.target route = .ok (.name place found)) :
    ∃ above name, tree.Names route above name ∧ place = above ++ [name] ∧
      found = tree.root.at? place := by
  rw [FileTree.target] at h
  cases hends : route.segments.getLast? with
  | none => simp [hends] at h
  | some name =>
    cases hleads : follow tree.root (tree.start route) route.segments.dropLast with
    | error fault => simp [hends, hleads, bind, Except.bind] at h
    | ok above =>
      cases hnode : tree.root.at? above with
      | none => simp [hends, hleads, hnode, bind, Except.bind] at h
      | some node =>
        cases node with
        | file content => simp [hends, hleads, hnode, bind, Except.bind] at h
        | dir entries =>
          simp only [hends, hleads, hnode, bind, Except.bind] at h
          split_ifs at h with hdots hlong
          · cases h
          · cases h
            obtain ⟨hhere, hup⟩ := not_or.mp hdots
            exact ⟨above, name, ⟨hends, hleads, hasDir_iff.mpr ⟨entries, hnode⟩, hhere, hup, hlong⟩,
              rfl, (at?_append_of_dir hnode).symm⟩

/-- The place that a route names can be read off the path. -/
theorem Names.place_eq {above : Place} {name : String} (hroute : Route.ofPath path = .ok route)
    (h : tree.Names route above name) : above ++ [name] = placeOf tree.cwd path := by
  have hsegments : route.segments = (splitAt '/' path).filter (! ·.isEmpty) ∧
      route.fromRoot = (path.toList.head? == some '/') := by
    rw [Route.ofPath] at hroute
    split_ifs at hroute
    cases hroute
    exact ⟨rfl, rfl⟩
  have henter : above ++ [name] = above.enter name := by
    rw [Place.enter, if_neg h.notHere, if_neg h.notUp]
  have hsplit : route.segments.dropLast ++ [name] = route.segments :=
    List.dropLast_append_getLast? name h.ends
  rw [henter, follow_eq_ok h.leads, placeOf, ← hsegments.1, start, hsegments.2]
  generalize (if (path.toList.head? == some '/') = true then [] else tree.cwd) = origin
  rw [← hsplit, List.dropLast_concat, List.foldl_append, List.foldl_cons, List.foldl_nil]

/-- A route still names something in a tree that keeps the directories. -/
theorem Names.of_kept (hkept : ∀ place, tree.HasDir place → after.HasDir place)
    (hcwd : after.cwd = tree.cwd) {above : Place} {name : String}
    (h : tree.Names route above name) : after.Names route above name where
  ends := h.ends
  leads := by
    rw [start, hcwd]
    exact follow_of_kept hkept h.hasDir h.leads
  hasDir := hkept above h.hasDir
  notHere := h.notHere
  notUp := h.notUp
  short := h.short

/-! ### Changes at one place -/

/-- The tree afterwards differs at one place, from what does not stand in the way of a path. -/
structure Sets (tree : FileTree) (place : Place) (kind : Option (Option ByteArray))
    (after : FileTree) : Prop where
  cwd : after.cwd = tree.cwd
  notDir : ¬ tree.HasDir place
  kind? : after.kind? = Function.update tree.kind? place kind

/-- A change of what a route names, where no directory stands. -/
theorem Names.sets {above : Place} {name : String} (h : tree.Names route above name)
    (hnotDir : ¬ tree.HasDir (above ++ [name])) {node : Option Node}
    (hnode : Node.Childless node) :
    tree.Sets (above ++ [name]) (node.map Node.label)
      { tree with root := tree.root.alter (fun _ => node) (above ++ [name]) } where
  cwd := rfl
  notDir := hnotDir
  kind? := by
    refine Node.kind?_alter (hasDir_iff.mp h.hasDir) ?_ hnode
    rw [hasDir_iff] at hnotDir
    cases hfound : tree.root.at? (above ++ [name]) with
    | none => exact Node.childless_none
    | some found =>
      cases found with
      | file content => exact Node.childless_file content
      | dir entries => exact (hnotDir ⟨entries, hfound⟩).elim

/-- Directories stay. -/
theorem Sets.hasDir {kind : Option (Option ByteArray)} (h : tree.Sets place kind after)
    {other : Place} (hother : tree.HasDir other) : after.HasDir other := by
  have hne : other ≠ place := fun heq => h.notDir (heq ▸ hother)
  rw [HasDir, h.kind?, Function.update_of_ne hne]
  exact hother

/-- The files afterwards, by their places. -/
theorem Sets.content? {kind : Option (Option ByteArray)} (h : tree.Sets place kind after) :
    after.content? = Function.update tree.content? place kind.join := by
  funext other
  rw [FileTree.content?, h.kind?]
  by_cases hother : other = place
  · rw [hother, Function.update_self, Function.update_self]
  · rw [Function.update_of_ne hother, Function.update_of_ne hother, FileTree.content?]

/-- A directory is made where a path names nothing yet. -/
theorem names_of_makeDir (h : tree.makeDir path = .ok after) :
    ∃ route above name, Route.ofPath path = .ok route ∧ tree.Names route above name ∧
      tree.root.at? (above ++ [name]) = none ∧ after = tree.put (above ++ [name]) (.dir []) := by
  rw [makeDir] at h
  obtain ⟨route, hroute, h⟩ := except_bind_eq_ok.mp h
  obtain ⟨target, htarget, h⟩ := except_bind_eq_ok.mp h
  cases target with
  | unnamed => cases h
  | name place found =>
    cases found with
    | some node => cases h
    | none =>
      cases h
      obtain ⟨above, name, hnames, rfl, hfound⟩ := names_of_target htarget
      exact ⟨route, above, name, hroute, hnames, hfound.symm, rfl⟩

/-- A new directory stands where nothing stood. -/
theorem makeDir_eq_ok (h : tree.makeDir path = .ok after) :
    ∃ place, tree.kind? place = none ∧ tree.Sets place (some none) after := by
  obtain ⟨route, above, name, -, hnames, hfound, rfl⟩ := names_of_makeDir h
  have hnone : tree.kind? (above ++ [name]) = none := by
    rw [FileTree.kind?, Node.kind?, hfound, Option.map_none]
  exact ⟨_, hnone, hnames.sets (by simp [HasDir, hnone]) Node.childless_empty⟩

/-- The path names something in a directory, and asks for no directory. -/
def Reaches (tree : FileTree) (path : String) : Prop :=
  ∃ route above name, Route.ofPath path = .ok route ∧ route.toDirectory = false ∧
    tree.Names route above name

/-- A path still names something in a tree that keeps the directories. -/
theorem Reaches.of_kept (hkept : ∀ place, tree.HasDir place → after.HasDir place)
    (hcwd : after.cwd = tree.cwd) (h : tree.Reaches path) : after.Reaches path := by
  obtain ⟨route, above, name, hroute, hfile, hnames⟩ := h
  exact ⟨route, above, name, hroute, hfile, hnames.of_kept hkept hcwd⟩

/-- No directory stands where none is found. -/
theorem not_hasDir_of_found {found : Option Node} (hfound : found = tree.root.at? place)
    (h : ∀ entries, found ≠ some (.dir entries)) : ¬ tree.HasDir place := by
  rw [hasDir_iff, ← hfound]
  exact not_exists.mpr h

/-- A file is written where a path names no directory. -/
theorem names_of_write {content : ByteArray} (h : tree.write path content = .ok after) :
    ∃ route above name, Route.ofPath path = .ok route ∧ route.toDirectory = false ∧
      tree.Names route above name ∧ ¬ tree.HasDir (above ++ [name]) ∧
      after = tree.put (above ++ [name]) (.file content) := by
  rw [write] at h
  obtain ⟨route, hroute, h⟩ := except_bind_eq_ok.mp h
  obtain ⟨target, htarget, h⟩ := except_bind_eq_ok.mp h
  cases target with
  | unnamed => cases h
  | name place found =>
    have hnotDir : ∀ entries, found ≠ some (.dir entries) := by
      intro entries hentries
      subst hentries
      cases h
    have hput : (if route.toDirectory then .error .isDirectory
        else .ok (tree.put place (.file content)) : Except Fault FileTree) = .ok after := by
      rcases found with _ | _ | entries
      · exact h
      · exact h
      · exact (hnotDir entries rfl).elim
    split_ifs at hput with hfile
    cases hput
    obtain ⟨above, name, hnames, rfl, hfound⟩ := names_of_target htarget
    exact ⟨route, above, name, hroute, by simpa using hfile, hnames,
      not_hasDir_of_found hfound hnotDir, rfl⟩

/-- A written file stands at the place of its path, which names it from then on. -/
theorem write_eq_ok {content : ByteArray} (h : tree.write path content = .ok after) :
    tree.Sets (placeOf tree.cwd path) (some (some content)) after ∧ after.Reaches path := by
  obtain ⟨route, above, name, hroute, hfile, hnames, hnotDir, rfl⟩ := names_of_write h
  have hsets := hnames.sets hnotDir (Node.childless_file content)
  rw [← hnames.place_eq hroute]
  exact ⟨hsets, route, above, name, hroute, hfile, hnames.of_kept (fun _ => hsets.hasDir) hsets.cwd⟩

/-- Nothing stands any more at the place of a path whose file is removed. -/
theorem remove_eq_ok (h : tree.remove path = .ok after) :
    tree.Sets (placeOf tree.cwd path) none after := by
  rw [remove] at h
  obtain ⟨route, hroute, h⟩ := except_bind_eq_ok.mp h
  obtain ⟨target, htarget, h⟩ := except_bind_eq_ok.mp h
  rcases target with ⟨place, found⟩ | _
  · rcases found with _ | content | entries
    · cases h
    · change (if route.toDirectory then .error .notDirectory
        else .ok { tree with root := tree.root.alter (fun _ => none) place } :
          Except Fault FileTree) = .ok after at h
      split_ifs at h
      cases h
      obtain ⟨above, name, hnames, rfl, hfound⟩ := names_of_target htarget
      rw [← hnames.place_eq hroute]
      exact hnames.sets (not_hasDir_of_found hfound (by simp)) Node.childless_none
    · cases h
  · cases h

/-- A file can be removed under a path that names it. -/
theorem Reaches.exists_remove (h : tree.Reaches path)
    (hfile : tree.content? (placeOf tree.cwd path) ≠ none) :
    ∃ after, tree.remove path = .ok after := by
  obtain ⟨route, above, name, hroute, hnotDir, hnames⟩ := h
  rw [← hnames.place_eq hroute, FileTree.content?, FileTree.kind?, Node.kind?] at hfile
  have htarget := hnames.target
  rcases hfound : tree.root.at? (above ++ [name]) with _ | content | entries
  · simp [hfound] at hfile
  · rw [hfound] at htarget
    refine ⟨{ tree with root := tree.root.alter (fun _ => none) (above ++ [name]) }, ?_⟩
    rw [remove, hroute]
    change tree.target route >>= _ = _
    rw [htarget]
    change (if route.toDirectory then _ else _) = _
    rw [hnotDir]
    rfl
  · simp [hfound, Node.label] at hfile

/-! ### Directories -/

/-- The tree afterwards has the same files, and all the directories that there were. -/
structure Grows (tree after : FileTree) : Prop where
  cwd : after.cwd = tree.cwd
  content? : after.content? = tree.content?
  hasDir : ∀ place, tree.HasDir place → after.HasDir place

/-- A tree grows to itself. -/
theorem Grows.refl (tree : FileTree) : tree.Grows tree := ⟨rfl, rfl, fun _ => id⟩

/-- A tree grows further. -/
theorem Grows.trans {between : FileTree} (h : tree.Grows between) (h' : between.Grows after) :
    tree.Grows after :=
  ⟨h'.cwd.trans h.cwd, h'.content?.trans h.content?, fun place hplace =>
    h'.hasDir place (h.hasDir place hplace)⟩

/-- A new directory changes no file. -/
theorem grows_of_makeDir (h : tree.makeDir path = .ok after) : tree.Grows after := by
  obtain ⟨place, hnone, hsets⟩ := makeDir_eq_ok h
  refine ⟨hsets.cwd, ?_, fun _ => hsets.hasDir⟩
  have hcontent : tree.content? place = none := by rw [FileTree.content?, hnone, Option.join_none]
  rw [hsets.content?, Option.join_some, ← hcontent, Function.update_eq_self]

/-- What holds between a tree and the one with a new directory, and goes on holding, holds when a
directory is made with all directories above it, whether or not all of them can be made. -/
theorem makeDirs_induction {R : FileTree → FileTree → Prop} (hrefl : ∀ tree, R tree tree)
    (htrans : ∀ tree between after, R tree between → R between after → R tree after)
    (fromRoot : Bool) (segments : List String)
    (hstep : ∀ tree after below, below <:+ segments →
      tree.makeDir (pathText fromRoot below.reverse) = .ok after → R tree after)
    (tree : FileTree) : R tree (tree.makeDirs fromRoot segments).1 := by
  induction segments with
  | nil => exact hrefl tree
  | cons last above ih =>
    have ih := ih fun tree after below hbelow =>
      hstep tree after below (hbelow.trans (List.suffix_cons last above))
    have hstep := fun tree after => hstep tree after _ (List.suffix_refl (last :: above))
    rw [makeDirs]
    cases hmake : tree.makeDir (pathText fromRoot (last :: above).reverse) with
    | ok made => exact hstep _ _ hmake
    | error fault =>
      cases fault with
      | notFound =>
        simp only
        rcases hmade : tree.makeDirs fromRoot above with ⟨made, _ | fault⟩
        · rw [hmade] at ih
          simp only
          cases hagain : made.makeDir (pathText fromRoot (last :: above).reverse) with
          | ok after => exact htrans _ _ _ ih (hstep _ _ hagain)
          | error fault => exact ih
        · rw [hmade] at ih
          exact ih
      | _ => exact hrefl tree

/-- Directories that are made with all directories above them change no file. -/
theorem grows_makeDirs (tree : FileTree) (fromRoot : Bool) (segments : List String) :
    tree.Grows (tree.makeDirs fromRoot segments).1 :=
  makeDirs_induction Grows.refl (fun _ _ _ => Grows.trans) fromRoot segments
    (fun _ _ _ _ => grows_of_makeDir) tree

end PreferenceInjector.FileTree
