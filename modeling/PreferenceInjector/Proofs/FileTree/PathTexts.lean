import Mathlib.Data.List.Basic
import PreferenceInjector.FileTree.Basic

/-!
# Joined paths

A segment that is a plain name is joined to a path as one more segment, whatever the path is: the
path keeps its beginning, and the place that it leads to has the name added. So nothing that is
joined out of plain names leaves the directory that it starts from.
-/

namespace PreferenceInjector

/-! ### Pieces -/

/-- A text without the separator is one piece. -/
theorem pieces_of_notMem {sep : Char} {text : List Char} (h : sep ∉ text) :
    pieces sep text = [text] := by
  induction text with
  | nil => rfl
  | cons c rest ih =>
    rw [List.mem_cons, not_or] at h
    rw [pieces, if_neg (Ne.symm h.1), ih h.2]

/-- The pieces on both sides of a separator. -/
theorem pieces_append_cons (sep : Char) (before after : List Char) :
    pieces sep (before ++ sep :: after) = pieces sep before ++ pieces sep after := by
  induction before with
  | nil => simp [pieces]
  | cons c rest ih =>
    rw [List.cons_append, pieces, pieces, ih]
    by_cases hc : c = sep
    · rw [if_pos hc, if_pos hc, List.cons_append]
    · rw [if_neg hc, if_neg hc]
      cases hpieces : pieces sep rest with
      | nil => exact (pieces_ne_nil sep rest hpieces).elim
      | cons piece more => rfl

/-- No piece has the separator. -/
theorem notMem_of_mem_pieces {sep : Char} {text piece : List Char} (h : piece ∈ pieces sep text) :
    sep ∉ piece := by
  induction text generalizing piece with
  | nil => simp_all [pieces]
  | cons c rest ih =>
    rw [pieces] at h
    split_ifs at h with hc
    · rcases List.mem_cons.mp h with rfl | hrest
      · exact List.not_mem_nil
      · exact ih hrest
    · cases hpieces : pieces sep rest with
      | nil => exact (pieces_ne_nil sep rest hpieces).elim
      | cons first more =>
        rw [hpieces] at h ih
        rcases List.mem_cons.mp h with rfl | hmore
        · rw [List.mem_cons, not_or]
          exact ⟨Ne.symm hc, ih List.mem_cons_self⟩
        · exact ih (List.mem_cons_of_mem _ hmore)

/-- A text that has a separator has a last one. -/
theorem exists_eq_append_of_mem {sep : Char} {text : List Char} (h : sep ∈ text) :
    ∃ before after, text = before ++ sep :: after ∧ sep ∉ after := by
  obtain ⟨after, before, hsplit, hafter⟩ := List.eq_append_cons_of_mem (List.mem_reverse.mpr h)
  refine ⟨before.reverse, after.reverse, ?_, by simpa using hafter⟩
  rw [← List.reverse_reverse text, hsplit]
  simp

/-- Texts without the separator are the parts of the text that joins them with it. -/
theorem splitAt_intercalate {sep : Char} {names : List String} (hne : names ≠ [])
    (h : ∀ name ∈ names, sep ∉ name.toList) :
    splitAt sep ((String.singleton sep).intercalate names) = names := by
  induction names with
  | nil => exact (hne rfl).elim
  | cons name names ih =>
    obtain ⟨hname, hnames⟩ := List.forall_mem_cons.mp h
    cases names with
    | nil => simp [splitAt, pieces_of_notMem hname]
    | cons second more =>
      have hrest := ih (List.cons_ne_nil _ _) hnames
      rw [splitAt] at hrest
      have htext : ((String.singleton sep).intercalate (name :: second :: more)).toList =
          name.toList ++ sep :: ((String.singleton sep).intercalate (second :: more)).toList := by
        simp [String.intercalate_cons_cons]
      rw [splitAt, htext, pieces_append_cons, List.map_append, hrest, pieces_of_notMem hname]
      simp

/-! ### Segments -/

/-- A segment that is the name of a file or directory. -/
structure IsPlain (segment : String) : Prop where
  notEmpty : segment ≠ ""
  notHere : segment ≠ "."
  notUp : segment ≠ ".."
  noSlash : '/' ∉ segment.toList

/-- The slash between a path and what is joined to it; none follows an empty path or another
slash. -/
def separator (path : String) : String :=
  if path = "" ∨ path.toList.getLast? = some '/' then "" else "/"

/-- The segments of a path that are not empty. -/
def filledSegments (path : String) : List String := (splitAt '/' path).filter (! ·.isEmpty)

/-- A segment that is not empty and lies between slashes. -/
def IsFilled (segment : String) : Prop := segment ≠ "" ∧ '/' ∉ segment.toList

/-- The segments of a path lie between slashes. -/
theorem isFilled_of_mem_pathSegments {path segment : String} (h : segment ∈ pathSegments path) :
    IsFilled segment := by
  have hsegment : segment ∈ filledSegments path := by
    rw [pathSegments] at h
    rw [filledSegments]
    revert h
    cases (splitAt '/' path).filter (! ·.isEmpty) with
    | nil => exact id
    | cons first rest =>
      simp only
      split
      · exact fun h => List.mem_cons_of_mem _ (List.mem_of_mem_filter h)
      · intro h
        rcases List.mem_cons.mp h with rfl | hrest
        · exact List.mem_cons_self
        · exact List.mem_cons_of_mem _ (List.mem_of_mem_filter hrest)
  obtain ⟨hpiece, hne⟩ := List.mem_filter.mp hsegment
  obtain ⟨piece, hmem, rfl⟩ := List.mem_map.mp hpiece
  exact ⟨by simpa using hne, by simpa using notMem_of_mem_pieces hmem⟩

/-- Segments that are written as a path are its segments. -/
theorem filledSegments_pathText {segments : List String}
    (h : ∀ segment ∈ segments, IsFilled segment) (fromRoot : Bool) :
    filledSegments (pathText fromRoot segments) = segments := by
  have hkept : segments.filter (! ·.isEmpty) = segments := by
    rw [List.filter_eq_self]
    intro segment hmem
    simpa using (h segment hmem).1
  have hrelative : filledSegments ("/".intercalate segments) = segments := by
    rcases eq_or_ne segments [] with rfl | hne
    · rfl
    · have hsplit : splitAt '/' ("/".intercalate segments) = segments :=
        splitAt_intercalate hne fun segment hmem => (h segment hmem).2
      rw [filledSegments, hsplit, hkept]
  cases fromRoot with
  | false =>
    rw [pathText, if_neg Bool.false_ne_true, String.empty_append]
    exact hrelative
  | true =>
    rw [filledSegments, splitAt] at hrelative ⊢
    rw [pathText, if_pos rfl, String.toList_append]
    change ((pieces '/' ('/' :: _)).map String.ofList).filter _ = segments
    rw [pieces, if_pos rfl, List.map_cons, List.filter_cons]
    exact hrelative

variable {segment : String}

/-- A plain name starts with a character other than a slash. -/
theorem IsPlain.exists_cons (h : IsPlain segment) :
    ∃ c rest, segment.toList = c :: rest ∧ c ≠ '/' := by
  cases hsegment : segment.toList with
  | nil => exact (h.notEmpty (String.toList_eq_nil_iff.mp hsegment)).elim
  | cons c rest =>
    refine ⟨c, rest, rfl, ?_⟩
    intro hc
    exact h.noSlash (by simp [hsegment, hc])

/-- A plain name is joined behind a slash. -/
theorem joinPath_of_isPlain (h : IsPlain segment) (path : String) :
    joinPath path segment = path ++ separator path ++ segment := by
  obtain ⟨c, rest, hsegment, hc⟩ := h.exists_cons
  rw [joinPath, separator]
  split
  · next hslash => simp [hsegment, hc] at hslash
  · split
    · next hlast =>
      rw [List.getLast?_eq_none_iff, String.toList_eq_nil_iff] at hlast
      simp [hlast]
    · next hlast => simp [hlast]
    · next last hne hlast =>
      have hfilled : path ≠ "" := by
        intro hempty
        simp [hempty] at hlast
      have hslash : last ≠ '/' := fun heq => hne heq
      simp [hfilled, hlast, hslash]

/-- A path that ends in a plain name is continued by a slash. -/
theorem separator_joinPath (h : IsPlain segment) (path : String) :
    separator (joinPath path segment) = "/" := by
  obtain ⟨c, rest, hsegment, -⟩ := h.exists_cons
  have hlast : (joinPath path segment).toList.getLast? = segment.toList.getLast? := by
    rw [joinPath_of_isPlain h, String.toList_append, hsegment, List.getLast?_append_cons]
  rw [separator, if_neg]
  rintro (hempty | hslash)
  · rw [hempty, hsegment] at hlast
    exact List.cons_ne_nil c rest (List.getLast?_eq_none_iff.mp hlast.symm)
  · rw [hlast] at hslash
    exact h.noSlash (List.mem_of_getLast? hslash)

/-- A plain name is one more segment. -/
theorem filledSegments_joinPath (h : IsPlain segment) (path : String) :
    filledSegments (joinPath path segment) = filledSegments path ++ [segment] := by
  have hsegment : [String.ofList segment.toList].filter (! ·.isEmpty) = [segment] := by
    simp [h.notEmpty]
  rw [joinPath_of_isPlain h, separator, filledSegments, filledSegments, splitAt, splitAt]
  split
  · next hend =>
    rcases hend with rfl | hlast
    · simpa [pieces, pieces_of_notMem h.noSlash] using hsegment
    · obtain ⟨before, hbefore⟩ := List.getLast?_eq_some_iff.mp hlast
      have hempty : pieces '/' (before ++ ['/']) = pieces '/' before ++ [[]] :=
        pieces_append_cons '/' before []
      have hpieces : pieces '/' (before ++ '/' :: segment.toList) =
          pieces '/' before ++ [segment.toList] := by
        rw [pieces_append_cons, pieces_of_notMem h.noSlash]
      simp [hbefore, hempty, hpieces, h.notEmpty]
  · have hpieces : pieces '/' (path.toList ++ '/' :: segment.toList) =
        pieces '/' path.toList ++ [segment.toList] := by
      rw [pieces_append_cons, pieces_of_notMem h.noSlash]
    have htext : (path ++ "/" ++ segment).toList = path.toList ++ '/' :: segment.toList := by
      simp
    rw [htext, hpieces, List.map_append, List.filter_append]
    exact congrArg _ hsegment

/-- A plain name leaves the beginning of a path. -/
theorem head?_joinPath (h : IsPlain segment) (path : String) :
    ((joinPath path segment).toList.head? == some '/') = (path.toList.head? == some '/') := by
  obtain ⟨c, rest, hsegment, hc⟩ := h.exists_cons
  rw [joinPath_of_isPlain h]
  cases hpath : path.toList with
  | nil =>
    rw [String.toList_eq_nil_iff] at hpath
    simp [hpath, separator, hsegment, hc]
  | cons first more => simp [hpath]

/-- A plain name is one more component. -/
theorem pathSegments_joinPath (h : IsPlain segment) (path : String) :
    pathSegments (joinPath path segment) = pathSegments path ++ [segment] := by
  have hsegments := filledSegments_joinPath h path
  rw [filledSegments, filledSegments] at hsegments
  rw [pathSegments, pathSegments, hsegments, head?_joinPath h]
  cases (splitAt '/' path).filter (! ·.isEmpty) with
  | nil => simp [h.notHere]
  | cons first rest =>
    simp only [List.cons_append]
    split <;> simp [h.notHere]

/-- A plain name leads one step down. -/
theorem placeOf_joinPath (h : IsPlain segment) (cwd : Place) (path : String) :
    placeOf cwd (joinPath path segment) = placeOf cwd path ++ [segment] := by
  have hsegments := filledSegments_joinPath h path
  rw [filledSegments, filledSegments] at hsegments
  rw [placeOf, placeOf, hsegments, head?_joinPath h, List.foldl_append, List.foldl_cons,
    List.foldl_nil, Place.enter, if_neg h.notHere, if_neg h.notUp]

/-! ### Several segments -/

/-- Plain names are joined with slashes between them. -/
theorem foldl_joinPath {segments : List String} (h : ∀ segment ∈ segments, IsPlain segment)
    (hne : segments ≠ []) (path : String) :
    segments.foldl joinPath path = path ++ separator path ++ "/".intercalate segments := by
  induction segments generalizing path with
  | nil => exact (hne rfl).elim
  | cons segment segments ih =>
    obtain ⟨hsegment, hsegments⟩ := List.forall_mem_cons.mp h
    rw [List.foldl_cons]
    cases segments with
    | nil => simp [joinPath_of_isPlain hsegment]
    | cons second more =>
      rw [ih hsegments (List.cons_ne_nil _ _), separator_joinPath hsegment,
        joinPath_of_isPlain hsegment, String.intercalate_cons_cons]
      simp [String.append_assoc]

/-- Segments are added to what each of them is added to. -/
theorem foldl_joinPath_eq_append {names : String → List String} {segments : List String}
    (h : ∀ segment ∈ segments, ∀ path, names (joinPath path segment) = names path ++ [segment])
    (path : String) : names (segments.foldl joinPath path) = names path ++ segments := by
  induction segments generalizing path with
  | nil => simp
  | cons segment segments ih =>
    obtain ⟨hsegment, hsegments⟩ := List.forall_mem_cons.mp h
    rw [List.foldl_cons, ih hsegments, hsegment, List.append_assoc, List.singleton_append]

/-- The path continues a directory by some plain names: in its text, in its segments, and in the
place that it leads to from any working directory. -/
structure LiesBelow (dir : String) (names : List String) (path : String) : Prop where
  plain : ∀ name ∈ names, IsPlain name
  text : path = dir ++ separator dir ++ "/".intercalate names
  segments : pathSegments path = pathSegments dir ++ names
  places : ∀ cwd, placeOf cwd path = placeOf cwd dir ++ names

/-- Neither path is the other one or leads through it. -/
structure AreApart (path other : String) : Prop where
  segments : ¬ pathSegments path <+: pathSegments other ∧
    ¬ pathSegments other <+: pathSegments path
  places : ∀ cwd, ¬ placeOf cwd path <+: placeOf cwd other ∧
    ¬ placeOf cwd other <+: placeOf cwd path

/-- Plain names that are joined to a directory lie below it. -/
theorem liesBelow_foldl_joinPath {segments : List String}
    (h : ∀ segment ∈ segments, IsPlain segment) (hne : segments ≠ []) (dir : String) :
    LiesBelow dir segments (segments.foldl joinPath dir) :=
  ⟨h, foldl_joinPath h hne dir,
    foldl_joinPath_eq_append (fun segment hmem => pathSegments_joinPath (h segment hmem)) dir,
    fun cwd =>
      foldl_joinPath_eq_append (fun segment hmem => placeOf_joinPath (h segment hmem) cwd) dir⟩

/-- Paths below one directory are apart when their names are. -/
theorem LiesBelow.areApart {dir path other : String} {names others : List String}
    (h : LiesBelow dir names path) (h' : LiesBelow dir others other)
    (hnames : ¬ names <+: others) (hothers : ¬ others <+: names) : AreApart path other := by
  constructor
  · rw [h.segments, h'.segments, List.prefix_append_right_inj, List.prefix_append_right_inj]
    exact ⟨hnames, hothers⟩
  · intro cwd
    rw [h.places, h'.places, List.prefix_append_right_inj, List.prefix_append_right_inj]
    exact ⟨hnames, hothers⟩

/-- Paths that are apart are different. -/
theorem AreApart.ne {path other : String} (h : AreApart path other) : path ≠ other := by
  rintro rfl
  exact h.segments.1 (List.prefix_refl _)

end PreferenceInjector
