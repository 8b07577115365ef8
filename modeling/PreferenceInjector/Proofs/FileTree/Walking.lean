import PreferenceInjector.Proofs.Declaration.Denotation
import PreferenceInjector.Proofs.FileTree.ByteOrder
import PreferenceInjector.Proofs.FileTree.Listing

/-!
# Walks through directories

A walk takes the entries of a directory one after the other, in the order of their names, and goes
through a directory before it takes the next entry. Which directories it goes through is a matter of
their paths; the others it takes for files. What it finds does not depend on the order in which a
directory lists its entries. Sorting everything that is found in any order by the names on the way,
one after the other, comes to the same.
-/

namespace PreferenceInjector

open Declaration

/-! ### Names of files -/

/-- A name that a file or a directory can have. -/
structure IsFileName (name : String) : Prop where
  plain : IsPlain name
  short : name.utf8ByteSize ≤ segmentLimit
  noZero : '\x00' ∉ name.toList

/-- The name has the extension: it is what follows the last dot, which is not the first
character. -/
def HasExtension (extension name : String) : Prop :=
  ∃ stem, stem ≠ "" ∧ name = stem ++ "." ++ extension ∧ '.' ∉ extension.toList

/-- The last one of the names has the extension. -/
def Place.HasExtension (extension : String) (names : Place) : Prop :=
  ∃ above name, names = above ++ [name] ∧ PreferenceInjector.HasExtension extension name

/-- A single name is the last one. -/
theorem Place.hasExtension_singleton {extension name : String} :
    Place.HasExtension extension [name] ↔ PreferenceInjector.HasExtension extension name := by
  constructor
  · rintro ⟨above, last, hnames, hlast⟩
    have hlists : [] ++ [name] = above ++ [last] := hnames
    rwa [List.singleton_inj.mp (List.append_inj' hlists rfl).2]
  · exact fun h => ⟨[], name, rfl, h⟩

/-- The last one of several names is the last one of those behind the first. -/
theorem Place.hasExtension_cons_cons {extension name first : String} {below : Place} :
    Place.HasExtension extension (name :: first :: below) ↔
      Place.HasExtension extension (first :: below) := by
  constructor
  · rintro ⟨above, last, hnames, hlast⟩
    cases above with
    | nil => cases hnames
    | cons _ above => exact ⟨above, last, (List.cons.inj hnames).2, hlast⟩
  · rintro ⟨above, last, hnames, hlast⟩
    exact ⟨name :: above, last, by rw [hnames, List.cons_append], hlast⟩

/-- An extension is long enough to leave a stem. -/
theorem extension?_eq_some_iff {extension name : String} : extension? name = some extension ↔
    name ≠ ".." ∧ simpleName name = extension ∧ extension.length + 1 < name.length := by
  have hcut : extension? name =
      if name = ".." then none
      else if (simpleName name).length + 1 < name.length then some (simpleName name) else none := by
    simp [extension?, simpleName]
  rw [hcut]
  split_ifs with hup hlong
  · simp [hup]
  · rw [Option.some_inj]
    constructor
    · rintro rfl
      exact ⟨hup, rfl, hlong⟩
    · exact fun h => h.2.1
  · constructor
    · intro h
      cases h
    · rintro ⟨-, rfl, hlong'⟩
      exact (hlong hlong').elim

/-- A file has the extension that its name tells. -/
theorem hasExtension_iff {extension name : String} (h : IsPlain name) :
    HasExtension extension name ↔ extension? name = some extension := by
  constructor
  · rintro ⟨stem, hstem, rfl, hdot⟩
    have htext : stem ++ "." ++ extension =
        String.ofList (stem.toList ++ '.' :: extension.toList) := by
      simp [← String.toList_inj]
    have hlength : stem.length ≠ 0 := by simpa using hstem
    refine extension?_eq_some_iff.mpr ⟨h.notUp, ?_, ?_⟩
    · rw [htext, simpleName_append_dot _ hdot, String.ofList_toList]
    · simp only [String.length_append]
      have hpoint : ".".length = 1 := rfl
      omega
  · intro hextension
    obtain ⟨-, hsimple, hlong⟩ := extension?_eq_some_iff.mp hextension
    obtain ⟨before, after, hname, hafter⟩ :=
      exists_eq_append_of_mem (simpleName_of_extension? hextension).1
    have hends : String.ofList after = extension := by
      rw [← hsimple, ← String.ofList_toList (s := name), hname, simpleName_append_dot _ hafter]
    subst hends
    refine ⟨String.ofList before, ?_, ?_, by simpa using hafter⟩
    · have hlength := congrArg List.length hname
      simp only [List.length_append, List.length_cons, String.length_toList] at hlength
      rw [String.length_ofList] at hlong
      intro hempty
      have hnone : before = [] := by simpa using hempty
      rw [hnone, List.length_nil] at hlength
      omega
    · rw [← String.ofList_toList (s := name), hname]
      simp [← String.toList_inj]

namespace Node

variable {isDir : String → Bool} {extension path : String} {entries : List (String × Node)}
  {found : List Place}

mutual

/-- No directory has two entries of one name, and all names are names of files. -/
def HasProperNames : Node → Prop
  | file _ => True
  | dir entries => (entries.map (·.1)).Nodup ∧ EntriesHaveProperNames entries

/-- All names of entries, and of what lies below them, are names of files, and no directory has two
entries of one name. -/
def EntriesHaveProperNames : List (String × Node) → Prop
  | [] => True
  | (name, node) :: rest =>
    IsFileName name ∧ HasProperNames node ∧ EntriesHaveProperNames rest

end

/-- The entries have proper names one by one. -/
theorem entriesHaveProperNames_iff : EntriesHaveProperNames entries ↔
    ∀ entry ∈ entries, IsFileName entry.1 ∧ entry.2.HasProperNames := by
  induction entries with
  | nil => simp [EntriesHaveProperNames]
  | cons entry rest ih => simp [EntriesHaveProperNames, ih, and_assoc]

/-! ### Walks -/

/-- The places at which a walk through the entries of the directory with a path finds the files with
an extension, one after the other. A directory is one for the walk when its path passes the test. -/
inductive IsWalk (isDir : String → Bool) (extension : String) :
    String → List (String × Node) → List Place → Prop
  /-- Nothing is found among no entries. -/
  | nil {path : String} : IsWalk isDir extension path [] []
  /-- A file with the extension is found before all that comes after it. -/
  | take {path : String} {name node rest found}
      (hleast : ∀ entry ∈ rest, utf8Bytes name < utf8Bytes entry.1)
      (hend : node.isDir = true → isDir (joinPath path name) = false)
      (hname : HasExtension extension name) (hrest : IsWalk isDir extension path rest found) :
      IsWalk isDir extension path ((name, node) :: rest) ([name] :: found)
  /-- Another file is passed. -/
  | pass {path : String} {name node rest found}
      (hleast : ∀ entry ∈ rest, utf8Bytes name < utf8Bytes entry.1)
      (hend : node.isDir = true → isDir (joinPath path name) = false)
      (hname : ¬ HasExtension extension name) (hrest : IsWalk isDir extension path rest found) :
      IsWalk isDir extension path ((name, node) :: rest) found
  /-- A directory is walked through before what comes after it. -/
  | enter {path : String} {name held below rest found}
      (hleast : ∀ entry ∈ rest, utf8Bytes name < utf8Bytes entry.1)
      (hdir : isDir (joinPath path name) = true)
      (hbelow : IsWalk isDir extension (joinPath path name) held below)
      (hrest : IsWalk isDir extension path rest found) :
      IsWalk isDir extension path ((name, dir held) :: rest) (below.map (name :: ·) ++ found)
  /-- The entries may be listed in any order. -/
  | reorder {path : String} {listed entries found} (hlisted : listed.Perm entries)
      (h : IsWalk isDir extension path entries found) : IsWalk isDir extension path listed found

/-- Whatever holds of the names of the entries holds of the first names of what is found. -/
theorem IsWalk.forall_first (h : IsWalk isDir extension path entries found) (P : String → Prop)
    (hfirst : ∀ entry ∈ entries, P entry.1) :
    ∀ names ∈ found, ∃ first below, names = first :: below ∧ P first := by
  induction h with
  | nil => exact List.forall_mem_nil _
  | take _ _ _ _ ih =>
    obtain ⟨hhere, hrest⟩ := List.forall_mem_cons.mp hfirst
    exact List.forall_mem_cons.mpr ⟨⟨_, [], rfl, hhere⟩, ih hrest⟩
  | pass _ _ _ _ ih => exact ih (List.forall_mem_cons.mp hfirst).2
  | enter _ _ _ _ _ ih =>
    obtain ⟨hhere, hrest⟩ := List.forall_mem_cons.mp hfirst
    refine List.forall_mem_append.mpr ⟨?_, ih hrest⟩
    exact List.forall_mem_map.mpr fun below _ => ⟨_, below, rfl, hhere⟩
  | reorder hlisted _ ih =>
    exact ih fun entry hentry => hfirst entry (hlisted.mem_iff.mpr hentry)

/-- What is found among later entries comes later. -/
theorem IsWalk.lt_of_least (h : IsWalk isDir extension path entries found) {name : String}
    (hleast : ∀ entry ∈ entries, utf8Bytes name < utf8Bytes entry.1) (below : Place) :
    ∀ names ∈ found, name :: below < names := by
  intro names hnames
  obtain ⟨first, others, rfl, hless⟩ :=
    h.forall_first (fun first => utf8Bytes name < utf8Bytes first) hleast names hnames
  exact .rel (utf8Bytes_lt_iff.mp hless)

/-- What a walk finds is in the order of the names on the way. -/
theorem IsWalk.pairwise (h : IsWalk isDir extension path entries found) :
    found.Pairwise (· < ·) := by
  induction h with
  | nil => exact .nil
  | take hleast _ _ hrest ih =>
    exact List.pairwise_cons.mpr ⟨hrest.lt_of_least hleast [], ih⟩
  | pass _ _ _ _ ih => exact ih
  | enter hleast _ _ hrest ihbelow ih =>
    refine List.pairwise_append.mpr ⟨ihbelow.map _ fun _ _ => .cons, ih, ?_⟩
    intro names hnames others hothers
    obtain ⟨below, -, rfl⟩ := List.mem_map.mp hnames
    exact hrest.lt_of_least hleast below others hothers
  | reorder _ _ ih => exact ih

/-! ### Sorted paths -/

/-- Lists of names are compared name by name. -/
theorem namesLe_iff {names others : List String} :
    namesLe names others = true ↔ names ≤ others := by
  rw [← not_lt]
  induction names generalizing others with
  | nil => simp [namesLe]
  | cons name names ih =>
    cases others with
    | nil => simp [namesLe]
    | cons other others =>
      rw [namesLe, List.cons_lt_cons_iff]
      split_ifs with hname
      · simp [hname, ih]
      · have hother : ¬ other = name := Ne.symm hname
        simp [hother, lt_iff_le_and_ne, hname]

/-- What is found among entries is found entry by entry. -/
theorem entriesWithExtension_eq_flatMap : entriesWithExtension isDir extension path entries =
    entries.flatMap fun entry => withExtension isDir extension path entry.1 entry.2 := by
  induction entries with
  | nil => rfl
  | cons entry rest ih => rw [entriesWithExtension, ih, List.flatMap_cons]

/-- At the end of a way there is at most what stands there. -/
theorem withExtension_of_end {name : String} {node : Node}
    (h : node.isDir = true → isDir (joinPath path name) = false) :
    withExtension isDir extension path name node = named extension name := by
  cases node with
  | file content => rw [withExtension]
  | dir entries => rw [withExtension, h rfl, if_neg Bool.false_ne_true]

/-- A walk finds what is found in any order. -/
theorem IsWalk.perm (h : IsWalk isDir extension path entries found)
    (hproper : EntriesHaveProperNames entries) :
    found.Perm (entriesWithExtension isDir extension path entries) := by
  induction h with
  | nil => exact .nil
  | take _ hend hname _ ih =>
    obtain ⟨hfile, -, hrest⟩ := hproper
    rw [entriesWithExtension, withExtension_of_end hend, named,
      if_pos ((hasExtension_iff hfile.plain).mp hname)]
    exact (ih hrest).cons _
  | pass _ hend hname _ ih =>
    obtain ⟨hfile, -, hrest⟩ := hproper
    rw [entriesWithExtension, withExtension_of_end hend, named,
      if_neg ((hasExtension_iff hfile.plain).not.mp hname)]
    exact ih hrest
  | enter _ hdir _ _ ihbelow ih =>
    obtain ⟨-, ⟨-, hheld⟩, hrest⟩ := hproper
    rw [entriesWithExtension, withExtension, if_pos hdir]
    exact ((ihbelow hheld).map _).append (ih hrest)
  | reorder hlisted _ ih =>
    -- Listed in another order, the same is collected in another order.
    rw [entriesHaveProperNames_iff] at hproper ih
    refine (ih fun entry hentry => hproper entry (hlisted.mem_iff.mpr hentry)).trans ?_
    rw [entriesWithExtension_eq_flatMap, entriesWithExtension_eq_flatMap]
    exact (hlisted.flatMap_right _).symm

/-- A walk finds what is found in any order and sorted then. -/
theorem IsWalk.eq_mergeSort (h : IsWalk isDir extension path entries found)
    (hproper : EntriesHaveProperNames entries) :
    found = (entriesWithExtension isDir extension path entries).mergeSort namesLe := by
  have hsorted : ((entriesWithExtension isDir extension path entries).mergeSort namesLe).Pairwise
      (fun names others => namesLe names others = true) := by
    apply List.pairwise_mergeSort
    · intro a b c hab hbc
      exact namesLe_iff.mpr ((namesLe_iff.mp hab).trans (namesLe_iff.mp hbc))
    · intro a b
      rw [Bool.or_eq_true, namesLe_iff, namesLe_iff]
      exact le_total a b
  have hwalked : found.Pairwise fun names others => namesLe names others = true :=
    h.pairwise.imp fun hlt => namesLe_iff.mpr hlt.le
  refine List.Perm.eq_of_pairwise ?_ hwalked hsorted
    ((h.perm hproper).trans (List.mergeSort_perm _ _).symm)
  intro a b _ _ hab hba
  exact le_antisymm (namesLe_iff.mp hab) (namesLe_iff.mp hba)

/-! ### Walks through trees -/

/-- There is a walk through entries in the order of their names when there is one through each
directory among them. -/
theorem exists_isWalk_of_sorted
    (hsorted : entries.Pairwise fun entry other => utf8Bytes entry.1 < utf8Bytes other.1)
    (hbelow : ∀ name held, (name, dir held) ∈ entries →
      ∃ below, IsWalk isDir extension (joinPath path name) held below) :
    ∃ found, IsWalk isDir extension path entries found := by
  induction entries with
  | nil => exact ⟨[], .nil⟩
  | cons entry rest ih =>
    obtain ⟨hleast, hrest⟩ := List.pairwise_cons.mp hsorted
    obtain ⟨found, hfound⟩ :=
      ih hrest fun name held hmem => hbelow name held (List.mem_cons_of_mem _ hmem)
    obtain ⟨name, node⟩ := entry
    by_cases hend : node.isDir = true → isDir (joinPath path name) = false
    · by_cases hname : HasExtension extension name
      · exact ⟨_, .take hleast hend hname hfound⟩
      · exact ⟨_, .pass hleast hend hname hfound⟩
    · rw [Classical.not_imp, Bool.not_eq_false] at hend
      obtain ⟨hnode, hdir⟩ := hend
      cases node with
      | file content => cases hnode
      | dir held =>
        obtain ⟨below, hwalk⟩ := hbelow name held List.mem_cons_self
        exact ⟨_, .enter hleast hdir hwalk hfound⟩

/-- Entries of different names can be put into the order of their names. -/
theorem exists_isWalk_of_nodup (hnames : (entries.map (·.1)).Nodup)
    (hbelow : ∀ name held, (name, dir held) ∈ entries →
      ∃ below, IsWalk isDir extension (joinPath path name) held below) :
    ∃ found, IsWalk isDir extension path entries found := by
  have hperm := List.mergeSort_perm entries fun entry other => decide (entry.1 ≤ other.1)
  have hordered : (entries.mergeSort fun entry other => decide (entry.1 ≤ other.1)).Pairwise
      fun entry other => decide (entry.1 ≤ other.1) = true := by
    apply List.pairwise_mergeSort
    · intro a b c hab hbc
      exact decide_eq_true ((of_decide_eq_true hab).trans (of_decide_eq_true hbc))
    · intro a b
      simpa using le_total a.1 b.1
  have hdifferent : (entries.mergeSort fun entry other => decide (entry.1 ≤ other.1)).Pairwise
      fun entry other => entry.1 ≠ other.1 :=
    List.pairwise_map.mp ((hperm.map Prod.fst).nodup_iff.mpr hnames)
  have hsorted := hordered.imp₂ (fun _ _ hle hne =>
    utf8Bytes_lt_iff.mpr (lt_of_le_of_ne (of_decide_eq_true hle) hne)) hdifferent
  obtain ⟨found, hfound⟩ := exists_isWalk_of_sorted hsorted fun name held hmem =>
    hbelow name held (hperm.mem_iff.mp hmem)
  exact ⟨found, .reorder hperm.symm hfound⟩

/-- There is a walk through every directory among entries, whatever its path. -/
theorem exists_isWalk_below : ∀ entries : List (String × Node), EntriesHaveProperNames entries →
    ∀ name held, (name, dir held) ∈ entries →
      ∀ path, ∃ below, IsWalk isDir extension path held below
  | [], _, _, _, hmem => (List.not_mem_nil hmem).elim
  | (_, file _) :: rest, ⟨_, _, hrest⟩, name, held, hmem =>
    exists_isWalk_below rest hrest name held ((List.mem_cons.mp hmem).resolve_left (by simp))
  | (_, dir first) :: rest, ⟨_, ⟨hnames, hfirst⟩, hrest⟩, name, held, hmem => by
    rcases List.mem_cons.mp hmem with heq | hmem
    · cases heq
      intro path
      exact exists_isWalk_of_nodup hnames fun name held hmem =>
        exists_isWalk_below first hfirst name held hmem _
    · exact exists_isWalk_below rest hrest name held hmem

/-- There is just one outcome of a walk through a directory. -/
theorem exists_unique_isWalk (isDir : String → Bool) (extension path : String)
    (h : (dir entries).HasProperNames) :
    ∃ found, ∀ walked, IsWalk isDir extension path entries walked ↔ walked = found := by
  obtain ⟨hnames, hentries⟩ := h
  have hwalk : ∃ found, IsWalk isDir extension path entries found :=
    exists_isWalk_of_nodup hnames fun name held hmem =>
      exists_isWalk_below entries hentries name held hmem _
  obtain ⟨found, hfound⟩ := hwalk
  refine ⟨found, fun walked => ⟨fun hwalked => ?_, ?_⟩⟩
  · rw [hwalked.eq_mergeSort hentries, hfound.eq_mergeSort hentries]
  · rintro rfl
    exact hfound

/-! ### What is found -/

/-- What stands under the names that lead to an entry or further. -/
theorem at?_dir_cons (name : String) (node : Node) (rest : List (String × Node)) (first : String)
    (below : Place) : (dir ((name, node) :: rest)).at? (first :: below) =
      if name = first then node.at? below else (dir rest).at? (first :: below) := by
  rw [at?, child?]
  split_ifs with hname
  · rfl
  · rw [at?]

/-- What stands below a directory stands under the name of an entry. -/
theorem mem_names_of_at? {first : String} {below : Place} {node : Node}
    (h : (dir entries).at? (first :: below) = some node) : first ∈ entries.map (·.1) := by
  induction entries with
  | nil => cases h
  | cons entry rest ih =>
    rw [at?_dir_cons] at h
    split_ifs at h with hname
    · simp [hname]
    · exact List.mem_cons_of_mem _ (ih h)

/-- A way from the directory with a path ends at a node: it leads through directories, and the node
is not one of those that it could lead through. -/
structure IsEnd (isDir : String → Bool) (path : String) (names : Place) (node : Node) : Prop where
  stops : node.isDir = true → isDir (names.foldl joinPath path) = false
  through : ∀ above below, names = above ++ below → above ≠ [] → below ≠ [] →
    isDir (above.foldl joinPath path) = true

/-- A way of one step leads through nothing. -/
theorem isEnd_singleton {name : String} {node : Node} : IsEnd isDir path [name] node ↔
    (node.isDir = true → isDir (joinPath path name) = false) := by
  refine ⟨fun h => h.stops, fun h => ⟨h, ?_⟩⟩
  intro above below hnames habove hbelow
  rcases List.cons_eq_append_iff.mp hnames with ⟨rfl, -⟩ | ⟨rest, rfl, hrest⟩
  · exact (habove rfl).elim
  · exact (hbelow (List.append_eq_nil_iff.mp hrest.symm).2).elim

/-- A way of several steps leads through what stands at the end of the first one. -/
theorem isEnd_cons_cons {name first : String} {below : Place} {node : Node} :
    IsEnd isDir path (name :: first :: below) node ↔
      isDir (joinPath path name) = true ∧
        IsEnd isDir (joinPath path name) (first :: below) node := by
  constructor
  · intro h
    refine ⟨h.through [name] (first :: below) rfl (by simp) (by simp), h.stops, ?_⟩
    intro above rest hnames habove hrest
    exact h.through (name :: above) rest (by rw [hnames, List.cons_append]) (by simp) hrest
  · rintro ⟨hdir, hbelow⟩
    refine ⟨hbelow.stops, ?_⟩
    intro above rest hnames habove hrest
    rcases List.cons_eq_append_iff.mp hnames with ⟨rfl, -⟩ | ⟨others, rfl, hothers⟩
    · exact (habove rfl).elim
    · rcases eq_or_ne others [] with rfl | hne
      · exact hdir
      · exact hbelow.through others rest hothers hne hrest

/-- At the end of a way a name is found alone. -/
theorem mem_withExtension_of_end {name : String} {node : Node} (hname : IsPlain name)
    (hend : node.isDir = true → isDir (joinPath path name) = false) {names : Place} :
    names ∈ withExtension isDir extension path name node ↔
      names = [name] ∧ HasExtension extension name := by
  rw [withExtension_of_end hend, mem_named, hasExtension_iff hname]

mutual

/-- At a named node and below it, the ends of ways whose last name has the extension are found. -/
theorem mem_withExtension (path name : String) : ∀ node : Node, node.HasProperNames →
    IsFileName name → ∀ names, names ∈ withExtension isDir extension path name node ↔
      Place.HasExtension extension names ∧ ∃ below last, names = name :: below ∧
        node.at? below = some last ∧ IsEnd isDir path names last
  | file content, _, hname, names => by
    have hend : (file content).isDir = true → isDir (joinPath path name) = false :=
      fun h => (Bool.false_ne_true h).elim
    rw [mem_withExtension_of_end hname.plain hend]
    constructor
    · rintro ⟨rfl, hextension⟩
      exact ⟨Place.hasExtension_singleton.mpr hextension, [], _, rfl, rfl, isEnd_singleton.mpr hend⟩
    · rintro ⟨hextension, below, last, rfl, hbelow, -⟩
      cases below with
      | nil => exact ⟨rfl, Place.hasExtension_singleton.mp hextension⟩
      | cons first below => cases hbelow
  | dir entries, ⟨hnames, hentries⟩, hname, names => by
    by_cases hdir : isDir (joinPath path name) = true
    · rw [withExtension, if_pos hdir, List.mem_map]
      simp only [mem_entriesWithExtension _ entries hnames hentries]
      constructor
      · rintro ⟨below, ⟨hextension, last, hbelow, hend⟩, rfl⟩
        cases below with
        | nil => obtain ⟨_, _, hnil, -⟩ := hextension; simp at hnil
        | cons first below =>
          exact ⟨Place.hasExtension_cons_cons.mpr hextension, _, last, rfl, hbelow,
            isEnd_cons_cons.mpr ⟨hdir, hend⟩⟩
      · rintro ⟨hextension, below, last, rfl, hbelow, hend⟩
        cases below with
        | nil =>
          -- The way does not end here, since the directory is walked through.
          cases hbelow
          exact (Bool.false_ne_true ((hend.stops rfl).symm.trans hdir)).elim
        | cons first below =>
          exact ⟨_, ⟨Place.hasExtension_cons_cons.mp hextension, last, hbelow,
            (isEnd_cons_cons.mp hend).2⟩, rfl⟩
    · have hstop : isDir (joinPath path name) = false := Bool.not_eq_true _ ▸ hdir
      rw [mem_withExtension_of_end hname.plain fun _ => hstop]
      constructor
      · rintro ⟨rfl, hextension⟩
        exact ⟨Place.hasExtension_singleton.mpr hextension, [], _, rfl, rfl,
          isEnd_singleton.mpr fun _ => hstop⟩
      · rintro ⟨hextension, below, last, rfl, hbelow, hend⟩
        cases below with
        | nil => exact ⟨rfl, Place.hasExtension_singleton.mp hextension⟩
        | cons first below => exact (hdir (isEnd_cons_cons.mp hend).1).elim

/-- Among entries and below them, the ends of ways whose last name has the extension are found. -/
theorem mem_entriesWithExtension (path : String) : ∀ entries : List (String × Node),
    (entries.map (·.1)).Nodup → EntriesHaveProperNames entries → ∀ names,
      names ∈ entriesWithExtension isDir extension path entries ↔
        Place.HasExtension extension names ∧ ∃ last, (dir entries).at? names = some last ∧
          IsEnd isDir path names last
  | [], _, _, names => by
    rw [entriesWithExtension]
    constructor
    · intro hmem
      cases hmem
    · rintro ⟨⟨above, name, rfl, -⟩, last, hlast, -⟩
      cases above <;> cases hlast
  | (name, node) :: rest, hdistinct, ⟨hname, hnode, hrest⟩, names => by
    obtain ⟨hother, hdistinct⟩ := List.nodup_cons.mp hdistinct
    rw [entriesWithExtension, List.mem_append, mem_withExtension path name node hnode hname,
      mem_entriesWithExtension path rest hdistinct hrest, ← and_or_left]
    refine and_congr_right fun hextension => ?_
    obtain ⟨first, below, rfl⟩ : ∃ first below, names = first :: below := by
      obtain ⟨above, last, rfl, -⟩ := hextension
      exact List.exists_cons_of_ne_nil (by simp)
    constructor
    · rintro (⟨below, last, hnames, hbelow, hend⟩ | ⟨last, hlast, hend⟩)
      · obtain ⟨rfl, rfl⟩ := List.cons.inj hnames
        exact ⟨last, by rwa [at?_dir_cons, if_pos rfl], hend⟩
      · -- No other entry hides this one, since it has a name of its own.
        refine ⟨last, ?_, hend⟩
        rwa [at?_dir_cons, if_neg]
        rintro rfl
        exact hother (mem_names_of_at? hlast)
    · rintro ⟨last, hlast, hend⟩
      rw [at?_dir_cons] at hlast
      split_ifs at hlast with hfirst
      · exact .inl ⟨below, last, by rw [hfirst], hlast, hend⟩
      · exact .inr ⟨last, hlast, hend⟩

end

/-- A walk finds the ends of ways whose last name has the extension, each of them once. -/
theorem IsWalk.mem_iff (h : IsWalk isDir extension path entries found)
    (hproper : (dir entries).HasProperNames) (names : Place) :
    names ∈ found ↔ Place.HasExtension extension names ∧
      ∃ last, (dir entries).at? names = some last ∧ IsEnd isDir path names last := by
  rw [(h.perm hproper.2).mem_iff, mem_entriesWithExtension path entries hproper.1 hproper.2]

end Node

end PreferenceInjector
