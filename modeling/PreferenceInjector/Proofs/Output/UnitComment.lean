import Mathlib.Data.List.Chain
import PreferenceInjector.Proofs.Output.UnitNames

/-!
# The documentation comment of a unit

Whatever the documentation says, it stays inside its comment: the pair that ends a comment stands
in the block once, at its end. It cannot arise inside a line, since every pair of the text is
written differently and what is written instead makes no new pair with its neighbours; it cannot
arise between lines, since each one starts with a blank and ends in a line feed. Every line of the
documentation is one line of the block, and is kept as it is unless it holds the pair.
-/

namespace PreferenceInjector.CompilationUnit

/-- Some lines as a text, each ended by a line feed. -/
def linesText (lines : List String) : String := String.join (lines.map (· ++ "\n"))

/-- A line without the carriage return at its end, if there is one. -/
def withoutReturn (line : List Char) : List Char :=
  if line.getLast? = some '\r' then line.dropLast else line

/-- The text is cut into lines at its line feeds, and a carriage return in front of a line feed is
dropped with it. What follows the last line feed is a line unless it is empty. -/
def IsCutInto (text : List Char) (lines : List (List Char)) : Prop :=
  ∃ (ended : List (List Char)) (last : List Char), text = ended.flatMap (· ++ ['\n']) ++ last ∧
    (∀ line ∈ ended, '\n' ∉ line) ∧ '\n' ∉ last ∧
    lines = ended.map withoutReturn ++ if last = [] then [] else [last]

/-- The pair of characters that ends a comment stands in the text. -/
def HoldsTerminator (text : List Char) : Prop := ['*', '/'] <:+: text

/-- The text has `*&#47;` where the line has the pair that ends a comment, and is the same as the
line between these pairs. -/
inductive Escapes : List Char → List Char → Prop where
  | plain {line : List Char} : ¬ HoldsTerminator line → Escapes line line
  | pair {before line text : List Char} : ¬ HoldsTerminator before → Escapes line text →
      Escapes (before ++ '*' :: '/' :: line) (before ++ "*&#47;".toList ++ text)

/-- What is written for a line of the documentation: it goes on behind ` * `, as it is unless it
holds the pair that ends a comment. -/
def StandsFor (line : List Char) (written : String) : Prop :=
  ∃ text, written = " * " ++ String.ofList text ∧ '\n' ∉ text ∧ Escapes line text ∧
    (¬ HoldsTerminator line → text = line)

/-- A block of lines is the comment on a documentation: between its first and its last line it has
one line for each of the documentation, and it ends where a comment ends and nowhere before. -/
structure IsCommentOn (javadoc block : String) : Prop where
  layout : ∃ lines written, IsCutInto javadoc.toList lines ∧ List.Forall₂ StandsFor lines written ∧
    block = linesText (["/**"] ++ written ++ [" */"])
  ends : ∃ before, block = before ++ "*/" ++ "\n"
  once : ∀ before after, block = before ++ "*/" ++ after → after = "\n"

/-! ### Lines -/

/-- A character other than a line feed is in a text when it is in one of its lines. -/
theorem mem_linesText {c : Char} (hc : c ≠ '\n') {lines : List String} :
    c ∈ (linesText lines).toList ↔ ∃ line ∈ lines, c ∈ line.toList := by
  simp [linesText, String.toList_join, hc]

/-- A character stays in front of a line whose carriage return is dropped, unless it is the carriage
return. -/
theorem withoutReturn_cons {c : Char} {line : List Char} (h : c = '\r' → line ≠ []) :
    withoutReturn (c :: line) = c :: withoutReturn line := by
  cases line with
  | nil =>
    have hc : c ≠ '\r' := fun heq => h heq rfl
    simp [withoutReturn, hc]
  | cons second rest =>
    rw [withoutReturn, withoutReturn, List.getLast?_cons_cons]
    split_ifs <;> rfl

/-- A line is added in front of the others. -/
theorem IsCutInto.cons {line text : List Char} {lines : List (List Char)} (hline : '\n' ∉ line)
    (h : IsCutInto text lines) :
    IsCutInto (line ++ '\n' :: text) (withoutReturn line :: lines) := by
  obtain ⟨ended, last, rfl, hended, hlast, rfl⟩ := h
  exact ⟨line :: ended, last, by simp, List.forall_mem_cons.mpr ⟨hline, hended⟩, hlast, rfl⟩

/-- A text is cut into its lines. -/
theorem isCutInto_textLines (text : List Char) : IsCutInto text (textLines text) := by
  fun_induction textLines text with
  | case1 => exact ⟨[], [], rfl, List.forall_mem_nil _, List.not_mem_nil, rfl⟩
  | case2 rest ih => exact ih.cons List.not_mem_nil
  | case3 rest ih => exact IsCutInto.cons (show '\n' ∉ ['\r'] by decide) ih
  | case4 c rest hfeed _ hlines ih =>
    obtain ⟨ended, last, rfl, -, -, hnone⟩ := ih
    have hc : '\n' ≠ c := fun heq => hfeed heq.symm
    rw [hlines, eq_comm, List.append_eq_nil_iff, List.map_eq_nil_iff] at hnone
    obtain ⟨rfl, hlast⟩ := hnone
    have hempty : last = [] := by simpa using hlast
    exact ⟨[], [c], by rw [hempty]; rfl, List.forall_mem_nil _, by simpa using hc, rfl⟩
  | case5 c rest hfeed hreturn line more hlines ih =>
    obtain ⟨ended, last, rfl, hended, hlast, hsplit⟩ := ih
    have hc : '\n' ≠ c := fun heq => hfeed heq.symm
    rw [hlines] at hsplit
    cases ended with
    | nil =>
      -- The whole text is the last line.
      have hne : last ≠ [] := by
        rintro rfl
        cases hsplit
      rw [List.map_nil, List.nil_append, if_neg hne] at hsplit
      cases hsplit
      exact ⟨[], c :: line, rfl, List.forall_mem_nil _, by simpa [hc] using hlast, rfl⟩
    | cons first ended =>
      obtain ⟨hfirst, hended⟩ := List.forall_mem_cons.mp hended
      have hkept : withoutReturn (c :: first) = c :: withoutReturn first := by
        apply withoutReturn_cons
        rintro rfl rfl
        exact hreturn _ rfl rfl
      obtain ⟨rfl, rfl⟩ := List.cons.inj hsplit
      rw [← hkept]
      refine ⟨(c :: first) :: ended, last, rfl, ?_, hlast, rfl⟩
      exact List.forall_mem_cons.mpr ⟨by simpa [hc] using hfirst, hended⟩

/-! ### Terminators -/

/-- A text in which no character ends a comment with the one behind it holds no pair that does. -/
theorem not_holdsTerminator_iff {text : List Char} :
    ¬ HoldsTerminator text ↔ text.IsChain fun a b => ¬ (a = '*' ∧ b = '/') := by
  rw [List.isChain_iff_forall_rel_of_append_cons_cons]
  constructor
  · intro h a b before after htext hpair
    obtain ⟨rfl, rfl⟩ := hpair
    exact h ⟨before, after, by simp [htext]⟩
  · rintro h ⟨before, after, htext⟩
    exact h (by simpa using htext.symm) ⟨rfl, rfl⟩

/-- A character in front of a text makes no such pair unless it makes one with the first character
of the text. -/
theorem not_holdsTerminator_cons {c : Char} {text : List Char} (h : ¬ HoldsTerminator text)
    (hpair : c = '*' → text.head? ≠ some '/') : ¬ HoldsTerminator (c :: text) := by
  rw [not_holdsTerminator_iff] at h ⊢
  refine List.isChain_cons.mpr ⟨?_, h⟩
  rintro next hnext ⟨rfl, rfl⟩
  exact hpair rfl hnext

/-- Texts without such a pair make none side by side when the second one does not start with its
slash. -/
theorem not_holdsTerminator_append {text rest : List Char} (h : ¬ HoldsTerminator text)
    (hrest : ¬ HoldsTerminator rest) (hfirst : rest.head? ≠ some '/') :
    ¬ HoldsTerminator (text ++ rest) := by
  rw [not_holdsTerminator_iff] at h hrest ⊢
  refine h.append hrest ?_
  rintro c _ next hnext ⟨-, rfl⟩
  exact hfirst hnext

/-- What is written for a text starts like the text. -/
theorem head?_escapeTerminator (text : List Char) : (escapeTerminator text).head? = text.head? := by
  fun_cases escapeTerminator text <;> rfl

/-- A character that begins no pair does not begin one with what is written behind it. -/
theorem head?_ne_of_not_pair {c : Char} {rest : List Char}
    (h : ∀ more, c = '*' → rest = '/' :: more → False) : c = '*' → rest.head? ≠ some '/' := by
  intro hc hslash
  obtain ⟨more, hrest⟩ := List.head?_eq_some_iff.mp hslash
  exact h more hc hrest

/-- No pair ends a comment in what is written for a text. -/
theorem not_holdsTerminator_escapeTerminator (text : List Char) :
    ¬ HoldsTerminator (escapeTerminator text) := by
  fun_induction escapeTerminator text with
  | case1 rest ih =>
    rw [not_holdsTerminator_iff] at ih ⊢
    simpa [List.isChain_cons] using ih
  | case2 c rest hpair ih =>
    apply not_holdsTerminator_cons ih
    rw [head?_escapeTerminator]
    exact head?_ne_of_not_pair hpair
  | case3 => simp [HoldsTerminator]

/-- Every pair that ends a comment is escaped. -/
theorem escapes_escapeTerminator (text : List Char) : Escapes text (escapeTerminator text) := by
  fun_induction escapeTerminator text with
  | case1 rest ih =>
    have hnone : ¬ HoldsTerminator [] := by simp [HoldsTerminator]
    exact .pair hnone ih
  | case2 c rest hpair ih =>
    have hfirst := head?_ne_of_not_pair hpair
    generalize escapeTerminator rest = written at ih
    cases ih with
    | plain hrest => exact .plain (not_holdsTerminator_cons hrest hfirst)
    | @pair before line text hbefore hline =>
      have hbegins : ¬ HoldsTerminator (c :: before) := by
        apply not_holdsTerminator_cons hbefore
        intro hc hslash
        obtain ⟨more, rfl⟩ := List.head?_eq_some_iff.mp hslash
        exact hfirst hc rfl
      exact .pair hbegins hline
  | case3 => exact .plain (by simp [HoldsTerminator])

/-- A text without such a pair is written as it is. -/
theorem Escapes.eq_of_not_holdsTerminator {line text : List Char} (h : Escapes line text)
    (hline : ¬ HoldsTerminator line) : text = line := by
  cases h with
  | plain _ => rfl
  | @pair before line text _ _ => exact (hline ⟨before, line, by simp⟩).elim

/-! ### The block -/

/-- What is written for a line of the documentation. -/
def writtenLine (line : List Char) : String := " * " ++ String.ofList (escapeTerminator line)

/-- It stands for the line. -/
theorem standsFor_writtenLine {line : List Char} (h : '\n' ∉ line) :
    StandsFor line (writtenLine line) := by
  have hescapes := escapes_escapeTerminator line
  exact ⟨_, rfl, newline_notMem_escapeTerminator h, hescapes, hescapes.eq_of_not_holdsTerminator⟩

/-- Behind the first line of a block no pair ends a comment, up to the slash of the last line. -/
theorem not_holdsTerminator_writtenLines (lines : List (List Char)) :
    ¬ HoldsTerminator ((linesText (lines.map writtenLine)).toList ++ [' ', '*']) ∧
      ((linesText (lines.map writtenLine)).toList ++ [' ', '*']).head? = some ' ' := by
  induction lines with
  | nil => exact ⟨not_holdsTerminator_iff.mpr (by simp [linesText]), rfl⟩
  | cons line lines ih =>
    obtain ⟨hrest, hfirst⟩ := ih
    have htext : (linesText ((line :: lines).map writtenLine)).toList ++ [' ', '*'] =
        ' ' :: '*' :: ' ' :: (escapeTerminator line ++
          '\n' :: ((linesText (lines.map writtenLine)).toList ++ [' ', '*'])) := by
      simp [linesText, writtenLine, String.join_cons]
    have hended : ¬ HoldsTerminator
        ('\n' :: ((linesText (lines.map writtenLine)).toList ++ [' ', '*'])) :=
      not_holdsTerminator_cons hrest (by simp)
    have hline := not_holdsTerminator_append (not_holdsTerminator_escapeTerminator line) hended
      (by simp)
    rw [htext]
    refine ⟨?_, rfl⟩
    apply not_holdsTerminator_cons _ (by simp)
    apply not_holdsTerminator_cons _ (by simp)
    exact not_holdsTerminator_cons hline (by simp)

/-- The block of a documentation. -/
def commentBlock (javadoc : String) : String := linesText (javadocLines javadoc)

/-- The block of a documentation as its lines. -/
theorem javadocLines_eq {javadoc : String} (h : javadoc ≠ "") :
    javadocLines javadoc = ["/**"] ++ (textLines javadoc.toList).map writtenLine ++ [" */"] := by
  rw [javadocLines, if_neg (by simpa using h)]
  rfl

/-- Up to the slash of its last line a block holds no pair that ends a comment. -/
theorem exists_commentBlock_eq {javadoc : String} (h : javadoc ≠ "") :
    ∃ start : List Char, (commentBlock javadoc).toList = start ++ ['*', '/', '\n'] ∧
      ¬ HoldsTerminator (start ++ ['*']) := by
  obtain ⟨hlines, hfirst⟩ := not_holdsTerminator_writtenLines (textLines javadoc.toList)
  refine ⟨"/**\n".toList ++
    ((linesText ((textLines javadoc.toList).map writtenLine)).toList ++ [' ']), ?_, ?_⟩
  · rw [commentBlock, javadocLines_eq h]
    simp [linesText, String.join_append, String.join_cons]
  · rw [List.append_assoc, List.append_assoc]
    apply not_holdsTerminator_append (not_holdsTerminator_iff.mpr (by simp)) hlines
    rw [hfirst]
    decide

/-- A pair that ends a comment is the one behind a text that, with its star, holds none. -/
theorem eq_of_append_terminator {start before after : List Char}
    (hstart : ¬ HoldsTerminator (start ++ ['*']))
    (h : start ++ ['*', '/', '\n'] = before ++ '*' :: '/' :: after) : after = ['\n'] := by
  have hsplit : (start ++ ['*']) ++ ['/', '\n'] = (before ++ ['*']) ++ '/' :: after := by
    simpa using h
  rcases List.append_eq_append_iff.mp hsplit with ⟨between, -, hrest⟩ | ⟨between, hbefore, hrest⟩
  · -- The pair would begin behind the star.
    rcases between with _ | ⟨_, _ | ⟨_, _ | _⟩⟩ <;> simp_all
  · cases between with
    | nil => simpa using hrest
    | cons c between =>
      obtain ⟨rfl, -⟩ := List.cons.inj hrest
      exact (hstart ⟨before, between, by simp [hbefore]⟩).elim

/-- The block of a documentation is the comment on it. -/
theorem isCommentOn_commentBlock {javadoc : String} (h : javadoc ≠ "") :
    IsCommentOn javadoc (commentBlock javadoc) := by
  obtain ⟨start, hblock, hstart⟩ := exists_commentBlock_eq h
  refine ⟨⟨textLines javadoc.toList, (textLines javadoc.toList).map writtenLine,
    isCutInto_textLines _, ?_, ?_⟩, ?_, ?_⟩
  · rw [List.forall₂_map_right_iff, List.forall₂_same]
    intro line hline
    exact standsFor_writtenLine (newline_notMem_of_mem_textLines _ _ hline)
  · rw [commentBlock, javadocLines_eq h]
  · exact ⟨String.ofList start, by rw [← String.toList_inj, hblock]; simp⟩
  · intro before after heq
    have hchars : start ++ ['*', '/', '\n'] = before.toList ++ '*' :: '/' :: after.toList := by
      rw [← hblock, heq]
      simp
    rw [← String.toList_inj, eq_of_append_terminator hstart hchars]
    rfl

/-! ### The unit around the block -/

variable {injector : Injector} {options : Options}

/-- What stands before the documentation: the package clause and the imports. -/
def clauseText (injector : Injector) (options : Options) : String :=
  linesText (packageLines injector ++ importLines (imports injector options))

/-- What stands behind the documentation: the class. -/
def classText (injector : Injector) (options : Options) : String :=
  linesText (classLines injector options)

/-- The texts that a unit is made from, its documentation apart. -/
def givenTexts (injector : Injector) (options : Options) : List String :=
  [options.annotationType, options.indent, injector.package, injector.name,
    injector.parameter.simple, injector.component.package, injector.component.simple] ++
  injector.assignments.flatMap fun assignment =>
    [assignment.field, assignment.source.singleton.simple, assignment.source.accessor.getD ""]

/-- A unit is the clauses, the block of its documentation and the class. -/
theorem render_eq (injector : Injector) (options : Options) :
    render injector options = clauseText injector options ++ commentBlock options.javadoc ++
      classText injector options := by
  simp only [clauseText, commentBlock, classText, linesText, ← String.join_append,
    ← List.map_append]
  rfl

section NoStar

variable (h : ∀ text ∈ givenTexts injector options, '*' ∉ text.toList)
include h

/-- The clauses have no star in them where no given text has one. -/
theorem star_notMem_clauseText : '*' ∉ (clauseText injector options).toList := by
  simp only [givenTexts, List.forall_mem_append, List.forall_mem_cons] at h
  obtain ⟨⟨htype, -, hpackage, -, -, hcomponent, hsingleton, -⟩, -⟩ := h
  have himports : ∀ name ∈ imports injector options, '*' ∉ name.toList := by
    intro name hname
    rcases mem_imports.mp hname with ⟨rfl, -, -⟩ | ⟨rfl, -, -⟩
    · exact htype
    · rw [TypeRef.qualified, qualify]
      split_ifs <;> simp [hcomponent, hsingleton]
  rw [clauseText, mem_linesText (by decide)]
  rintro ⟨line, hline, hstar⟩
  rcases List.mem_append.mp hline with hline | hline
  · rw [packageLines] at hline
    split_ifs at hline
    · cases hline
    · rcases List.mem_pair.mp hline with rfl | rfl
      · simp [hpackage] at hstar
      · cases hstar
  · unfold importLines at hline
    split at hline
    · cases hline
    · rcases List.mem_append.mp hline with hline | hline
      · obtain ⟨name, hname, rfl⟩ := List.mem_map.mp hline
        simp [himports name hname] at hstar
      · rw [List.mem_singleton.mp hline] at hstar
        cases hstar

/-- Assignments have no star in them where no given text has one. -/
theorem star_notMem_assignment {assignment : Assignment}
    (hmem : assignment ∈ injector.assignments) : '*' ∉ assignment.text.toList := by
  have hgiven : ∀ text ∈ [assignment.field, assignment.source.singleton.simple,
      assignment.source.accessor.getD ""], '*' ∉ text.toList := by
    intro text htext
    exact h text (List.mem_append_right _ (List.mem_flatMap.mpr ⟨assignment, hmem, htext⟩))
  simp only [List.forall_mem_cons] at hgiven
  obtain ⟨hfield, hsingleton, haccessor, -⟩ := hgiven
  rw [Assignment.text, Source.text, Source.expression]
  cases hcase : assignment.source.accessor with
  | none => simp [hfield, hsingleton, singletonAccessor]
  | some accessor =>
    rw [hcase, Option.getD_some] at haccessor
    simp [hfield, hsingleton, haccessor, singletonAccessor]

/-- The class has no star in it where no given text has one. -/
theorem star_notMem_classText : '*' ∉ (classText injector options).toList := by
  have hassignments : ∀ assignment ∈ injector.assignments, '*' ∉ assignment.text.toList :=
    fun _ => star_notMem_assignment h
  simp only [givenTexts, List.forall_mem_append, List.forall_mem_cons] at h
  obtain ⟨⟨htype, hindent, -, hname, hparameter, -⟩, -⟩ := h
  have hsimple : '*' ∉ (simpleName options.annotationType).toList := by
    intro hstar
    rw [simpleName, String.toList_ofList, List.mem_reverse] at hstar
    exact htype (List.mem_reverse.mp ((List.takeWhile_sublist _).subset hstar))
  rw [classText, mem_linesText (by decide), classLines]
  rintro ⟨line, hline, hstar⟩
  rcases List.mem_append.mp hline with hline | hline
  · rcases List.mem_append.mp hline with hline | hline
    · rcases List.mem_pair.mp hline with rfl | rfl
      · simp [hname] at hstar
      · split_ifs at hstar <;>
          simp [hindent, hname, hsimple, hparameter, injectedObject] at hstar
    · obtain ⟨assignment, hassignment, rfl⟩ := List.mem_map.mp hline
      simp [hindent, injectedObject, hassignments assignment hassignment] at hstar
  · rcases List.mem_pair.mp hline with rfl | rfl
    · simp [hindent] at hstar
    · simp at hstar

end NoStar

/-- A unit without documentation is its clauses and its class, in which a star stands only where a
given text has one; with documentation there is the comment on it between the two, which are the
same for every documentation. -/
theorem render_comment (injector : Injector) (options : Options) :
    (options.javadoc = "" →
      render injector options = clauseText injector options ++ classText injector options ∧
        ((∀ text ∈ givenTexts injector options, '*' ∉ text.toList) →
          '*' ∉ (render injector options).toList)) ∧
    (options.javadoc ≠ "" → ∃ block, IsCommentOn options.javadoc block ∧
      render injector options =
        clauseText injector options ++ block ++ classText injector options) ∧
    ∀ javadoc, clauseText injector { options with javadoc } = clauseText injector options ∧
      classText injector { options with javadoc } = classText injector options := by
  have hrender := render_eq injector options
  refine ⟨?_, ?_, fun _ => ⟨rfl, rfl⟩⟩
  · intro hempty
    have hblock : commentBlock options.javadoc = "" := by
      rw [hempty]
      rfl
    rw [hblock, String.append_empty] at hrender
    refine ⟨hrender, ?_⟩
    intro hgiven
    rw [hrender, String.toList_append, List.mem_append, not_or]
    exact ⟨star_notMem_clauseText hgiven, star_notMem_classText hgiven⟩
  · intro hfilled
    exact ⟨_, isCommentOn_commentBlock hfilled, hrender⟩

end PreferenceInjector.CompilationUnit
