import PreferenceInjector.Proofs.Output.UnitNames

/-!
# What a unit tells about its injector

The text of a unit is cut into its lines again, because no line has a line feed in it. The line on
which the class begins is the first one of its kind: a clause, an import and a line of the
documentation all start in another way. So the clauses are told from the class, whatever the
documentation says, and the assignments are the lines between the constructor and the last two. An
assignment is read off its line up to the first blank, up to the first dot behind it, and to the
end. All that is lost is the package of a component that lies in the unnamed package, or in that of
the injector.
-/

namespace PreferenceInjector

open Declaration CompilationUnit

/-- Lines are indented with blanks and tabs, and the annotation is a dotted name or missing. -/
structure CompilationUnit.Options.IsPlain (options : Options) : Prop where
  annotation : options.annotationType = "" ∨ IsQualified options.annotationType
  indent : ∀ c ∈ options.indent.toList, c = ' ' ∨ c = '\t'

/-- The options put no line feed into a line. -/
structure CompilationUnit.Options.KeepLines (options : Options) : Prop where
  annotation : '\n' ∉ options.annotationType.toList
  indent : '\n' ∉ options.indent.toList

/-- Blanks, tabs and dotted names keep to their lines. -/
theorem CompilationUnit.Options.IsPlain.keepLines {options : Options} (h : options.IsPlain) :
    options.KeepLines := by
  refine ⟨(isClauseName_of_isQualified h.annotation).noLineEnd, ?_⟩
  intro hfeed
  rcases h.indent _ hfeed with hblank | htab
  · cases hblank
  · cases htab

/-- The field that an assignment fills, the simple name of the singleton that it reads, and the
accessor that it calls, if any. -/
def Assignment.wiring (assignment : Assignment) : String × String × Option String :=
  (assignment.field, assignment.source.singleton.simple, assignment.source.accessor)

/-- The parts of an assignment end where they do in its text. -/
structure Assignment.IsReadable (assignment : Assignment) : Prop where
  field : ' ' ∉ assignment.field.toList ∧ '\n' ∉ assignment.field.toList
  singleton : '.' ∉ assignment.source.singleton.simple.toList ∧
    '\n' ∉ assignment.source.singleton.simple.toList
  accessor : ∀ accessor, assignment.source.accessor = some accessor → '\n' ∉ accessor.toList

/-! ### Assignments -/

/-- What follows the singleton in an expression. -/
def Source.calls (source : Source) : String :=
  match source.accessor with
  | some accessor => ".getInstance()." ++ accessor ++ "()"
  | none => ".getInstance()"

/-- An assignment is its field, the singleton and the calls. -/
theorem Assignment.text_eq (assignment : Assignment) :
    assignment.text = assignment.field ++
      (" = " ++ (assignment.source.singleton.simple ++ assignment.source.calls)) := by
  rw [Assignment.text, Source.text, Source.expression, Source.calls]
  cases assignment.source.accessor <;> simp [singletonAccessor, String.append_assoc]

/-- The accessor is read off the calls. -/
theorem Source.accessor_eq_of_calls_eq {source other : Source} (h : source.calls = other.calls) :
    source.accessor = other.accessor := by
  have hchars := congrArg String.toList h
  rw [Source.calls, Source.calls] at hchars
  cases hfirst : source.accessor with
  | none =>
    cases hsecond : other.accessor with
    | none => rfl
    | some accessor => simp [hfirst, hsecond] at hchars
  | some accessor =>
    cases hsecond : other.accessor with
    | none => simp [hfirst, hsecond] at hchars
    | some accessor' => simpa [hfirst, hsecond, String.toList_inj] using hchars

/-- An assignment is read off its text. -/
theorem Assignment.IsReadable.wiring_eq {assignment other : Assignment}
    (h : assignment.IsReadable) (h' : other.IsReadable) (htext : assignment.text = other.text) :
    assignment.wiring = other.wiring := by
  rw [Assignment.text_eq, Assignment.text_eq] at htext
  have hfield : assignment.field = other.field := by
    have hcut := congrArg (Scope.upTo ' ') htext
    rwa [Scope.upTo_append h.field.1 (by simp), Scope.upTo_append h'.field.1 (by simp)] at hcut
  rw [hfield, String.append_right_inj, String.append_right_inj] at htext
  have hcalls : ∀ source : Source, source.calls.toList.head? = some '.' := by
    intro source
    rw [Source.calls]
    cases source.accessor <;> simp
  have hsingleton : assignment.source.singleton.simple = other.source.singleton.simple := by
    have hcut := congrArg (Scope.upTo '.') htext
    rwa [Scope.upTo_append h.singleton.1 (hcalls _), Scope.upTo_append h'.singleton.1 (hcalls _)]
      at hcut
  rw [hsingleton, String.append_right_inj] at htext
  rw [Assignment.wiring, Assignment.wiring, hfield, hsingleton,
    Source.accessor_eq_of_calls_eq htext]

/-- The text of a readable assignment is on one line. -/
theorem Assignment.IsReadable.newline_notMem {assignment : Assignment} (h : assignment.IsReadable) :
    '\n' ∉ assignment.text.toList := by
  rw [Assignment.text_eq, Source.calls]
  cases haccessor : assignment.source.accessor with
  | none => simp [h.field.2, h.singleton.2]
  | some accessor => simp [h.field.2, h.singleton.2, h.accessor accessor haccessor]

/-! ### Lists -/

/-- Lists that are cut at their first element of a kind are cut alike when they are the same. -/
theorem eq_of_append_cons_eq {α : Type} {P : α → Prop} {before others after rest : List α}
    {a b : α} (h : before ++ a :: after = others ++ b :: rest) (ha : P a) (hb : P b)
    (hbefore : ∀ c ∈ before, ¬ P c) (hothers : ∀ c ∈ others, ¬ P c) :
    before = others ∧ a = b ∧ after = rest := by
  induction before generalizing others with
  | nil =>
    cases others with
    | nil => simpa using h
    | cons other others =>
      obtain ⟨rfl, -⟩ := List.cons.inj h
      exact (hothers a List.mem_cons_self ha).elim
  | cons first before ih =>
    obtain ⟨hfirst, hbefore⟩ := List.forall_mem_cons.mp hbefore
    cases others with
    | nil =>
      obtain ⟨rfl, -⟩ := List.cons.inj h
      exact (hfirst hb).elim
    | cons other others =>
      obtain ⟨rfl, hrest⟩ := List.cons.inj h
      obtain ⟨rfl, hcut⟩ := ih hrest hbefore (List.forall_mem_cons.mp hothers).2
      exact ⟨rfl, hcut⟩

/-- What is read off the elements is read off lists of them. -/
theorem map_eq_of_map_eq {α β γ : Type} {f : α → β} {g : α → γ} {elements others : List α}
    (h : elements.map f = others.map f)
    (hread : ∀ a ∈ elements, ∀ b ∈ others, f a = f b → g a = g b) :
    elements.map g = others.map g := by
  induction elements generalizing others with
  | nil =>
    rw [List.map_nil, eq_comm, List.map_eq_nil_iff] at h
    rw [h]
  | cons a elements ih =>
    obtain ⟨b, others, rfl, hb, hrest⟩ := List.map_eq_cons_iff.mp h.symm
    rw [List.map_cons, List.map_cons, hread a List.mem_cons_self b List.mem_cons_self hb.symm]
    refine congrArg _ (ih hrest.symm ?_)
    intro a' ha' b' hb'
    exact hread a' (List.mem_cons_of_mem _ ha') b' (List.mem_cons_of_mem _ hb')

/-! ### Lines -/

variable {injector other : Injector} {options : Options}

/-- The lines before the class. -/
def openingLines (injector : Injector) (options : Options) : List String :=
  packageLines injector ++ (importLines (imports injector options) ++ javadocLines options.javadoc)

/-- The line of the constructor. -/
def constructorLine (injector : Injector) (options : Options) : String :=
  options.indent ++ "public " ++ injector.name ++ "(" ++
    (if options.annotationType.isEmpty then ""
      else "@" ++ simpleName options.annotationType ++ " ") ++
    injector.parameter.simple ++ " " ++ injectedObject ++ ") \x7b"

/-- The line of an assignment. -/
def assignmentLine (options : Options) (assignment : Assignment) : String :=
  options.indent ++ options.indent ++ injectedObject ++ "." ++ assignment.text ++ ";"

/-- The lines behind the one on which the class begins: the constructor with its assignments, and
two lines that close it. -/
def bodyLines (injector : Injector) (options : Options) : List String :=
  constructorLine injector options ::
    (injector.assignments.map (assignmentLine options) ++ [options.indent ++ "\x7d", "\x7d"])

/-- The line on which the class begins stands between the lines before the class and its body. -/
theorem unitLines_split (injector : Injector) (options : Options) :
    unitLines injector options =
      openingLines injector options ++ classLine injector :: bodyLines injector options := by
  rw [unitLines_eq, headLines, openingLines, bodyLines]
  simp [classLines, constructorLine, assignmentLine]

/-- No line of a unit has a line feed in it. -/
theorem newline_notMem_unitLines (h : injector.IsLegal)
    (hassignments : ∀ assignment ∈ injector.assignments, assignment.IsReadable)
    (hoptions : options.KeepLines) : ∀ line ∈ unitLines injector options, '\n' ∉ line.toList := by
  have hparameter : '\n' ∉ injector.parameter.simple.toList := h.name.1.notMem (by decide)
  have hname : '\n' ∉ injector.name.toList := by
    rw [h.name.2]
    simpa using hparameter
  have himports : ∀ name ∈ imports injector options, '\n' ∉ name.toList := by
    intro name hmem
    rcases mem_imports.mp hmem with ⟨rfl, -, -⟩ | ⟨rfl, -, -⟩
    · exact hoptions.annotation
    · exact h.isClauseName_component.noLineEnd
  have hsimple : '\n' ∉ (simpleName options.annotationType).toList := by
    intro hfeed
    rw [simpleName, String.toList_ofList, List.mem_reverse] at hfeed
    exact hoptions.annotation (List.mem_reverse.mp ((List.takeWhile_sublist _).subset hfeed))
  have hconstructor : '\n' ∉ (constructorLine injector options).toList := by
    rw [constructorLine]
    split_ifs <;> simp [hoptions.indent, hname, hsimple, hparameter, injectedObject]
  have hlines : ∀ line ∈ injector.assignments.map (assignmentLine options),
      '\n' ∉ line.toList := by
    rw [List.forall_mem_map]
    intro assignment hassignment
    have htext := (hassignments assignment hassignment).newline_notMem
    simp [assignmentLine, hoptions.indent, injectedObject, htext]
  have hhead := newline_notMem_of_mem_headLines
    (isClauseName_of_isQualified h.package).noLineEnd himports hname
  have hbody : ∀ line ∈ bodyLines injector options, '\n' ∉ line.toList := by
    rw [bodyLines, List.forall_mem_cons, List.forall_mem_append]
    exact ⟨hconstructor, hlines, by simp [hoptions.indent]⟩
  have hunit : unitLines injector options =
      headLines injector options ++ bodyLines injector options := by
    rw [unitLines_split, headLines, openingLines]
    simp
  rw [hunit, List.forall_mem_append]
  exact ⟨hhead, hbody⟩

/-- A unit without line feeds in its lines is cut into them. -/
theorem splitAt_render (h : ∀ line ∈ unitLines injector options, '\n' ∉ line.toList) :
    splitAt '\n' (render injector options) = unitLines injector options ++ [""] := by
  have hsplit := splitAt_join h ""
  rwa [String.append_empty] at hsplit

/-- The line begins a class. -/
def BeginsClass (line : String) : Prop := ∃ rest, line = "public class " ++ rest

/-- The line on which the class begins is one on which a class begins. -/
theorem beginsClass_classLine (injector : Injector) : BeginsClass (classLine injector) :=
  ⟨injector.name ++ " \x7b", by simp [classLine, String.append_assoc]⟩

/-- An import or a line of the documentation starts neither a package clause nor a class. -/
theorem head?_ne_of_mem {line : String}
    (h : line ∈ importLines (imports injector options) ++ javadocLines options.javadoc) :
    line.toList.head? ≠ some 'p' := by
  rcases List.mem_append.mp h with h | h
  · unfold importLines at h
    split at h
    · cases h
    · rcases List.mem_append.mp h with h | h
      · obtain ⟨name, -, rfl⟩ := List.mem_map.mp h
        simp
      · rw [List.mem_singleton.mp h]
        simp
  · intro hp
    exact ((startsNone_of_mem_javadocLines h).1 'p' hp).1 rfl

/-- No class begins before that of the unit. -/
theorem not_beginsClass_of_mem {line : String} (h : line ∈ openingLines injector options) :
    ¬ BeginsClass line := by
  rintro ⟨rest, rfl⟩
  rcases List.mem_append.mp h with h | h
  · rw [packageLines] at h
    split_ifs at h
    · cases h
    · have hchars := fun text (heq : "public class " ++ rest = text) => congrArg String.toList heq
      rcases List.mem_pair.mp h with h | h
      · simpa using hchars _ h
      · simpa using hchars _ h
  · exact head?_ne_of_mem h (by simp)

/-- The clause of a package is told from what follows it. -/
theorem package_eq_of_openingLines_eq
    (h : openingLines injector options = openingLines other options) :
    injector.package = other.package := by
  have hclause : ∀ (rest : Injector) (name : String) (lines : List String),
      importLines (imports rest options) ++ javadocLines options.javadoc ≠
        ("package " ++ name ++ ";") :: lines := by
    intro rest name lines heq
    have hmem : "package " ++ name ++ ";" ∈
        importLines (imports rest options) ++ javadocLines options.javadoc := by
      rw [heq]
      exact List.mem_cons_self
    exact head?_ne_of_mem hmem (by simp)
  simp only [openingLines, packageLines, String.isEmpty_iff] at h
  split_ifs at h with hfirst hsecond hsecond
  · rw [hfirst, hsecond]
  · exact (hclause _ _ _ h).elim
  · exact (hclause _ _ _ h.symm).elim
  · have hline := (List.cons.inj h).1
    rwa [String.append_left_inj, String.append_right_inj] at hline

/-- The class is told from the line on which it begins. -/
theorem name_eq_of_classLine_eq (h : classLine injector = classLine other) :
    injector.name = other.name := by
  rwa [classLine, classLine, String.append_left_inj, String.append_right_inj] at h

/-- The assignments are told from the lines of the body. -/
theorem wirings_eq_of_bodyLines_eq
    (hassignments : ∀ assignment ∈ injector.assignments, assignment.IsReadable)
    (hothers : ∀ assignment ∈ other.assignments, assignment.IsReadable)
    (h : bodyLines injector options = bodyLines other options) :
    injector.assignments.map Assignment.wiring = other.assignments.map Assignment.wiring := by
  have hlines : injector.assignments.map (assignmentLine options) =
      other.assignments.map (assignmentLine options) :=
    List.append_cancel_right (List.cons.inj h).2
  refine map_eq_of_map_eq hlines ?_
  intro assignment hassignment assignment' hassignment' hline
  have htext : assignment.text = assignment'.text := by
    rwa [assignmentLine, assignmentLine, String.append_left_inj, String.append_right_inj] at hline
  exact (hassignments assignment hassignment).wiring_eq (hothers assignment' hassignment') htext

/-! ### Units of parsed files -/

/-- The units of two legal injectors with readable assignments differ unless the injectors are the
same class, take the same parameter, and fill the same fields in the same way. -/
theorem Injector.IsLegal.wirings_eq (h : injector.IsLegal) (h' : other.IsLegal)
    (hassignments : ∀ assignment ∈ injector.assignments, assignment.IsReadable)
    (hothers : ∀ assignment ∈ other.assignments, assignment.IsReadable)
    (hoptions : options.KeepLines)
    (hrender : render injector options = render other options) :
    injector.package = other.package ∧ injector.name = other.name ∧
      injector.parameter = other.parameter ∧
      injector.assignments.map Assignment.wiring = other.assignments.map Assignment.wiring := by
  have hlines : unitLines injector options = unitLines other options := by
    have hsplit := congrArg (splitAt '\n') hrender
    rw [splitAt_render (newline_notMem_unitLines h hassignments hoptions),
      splitAt_render (newline_notMem_unitLines h' hothers hoptions)] at hsplit
    exact List.append_cancel_right hsplit
  rw [unitLines_split, unitLines_split] at hlines
  obtain ⟨hopening, hclass, hbody⟩ := eq_of_append_cons_eq hlines (beginsClass_classLine injector)
    (beginsClass_classLine other) (fun _ => not_beginsClass_of_mem)
    (fun _ => not_beginsClass_of_mem)
  have hpackage := package_eq_of_openingLines_eq hopening
  have hname := name_eq_of_classLine_eq hclass
  have hsimple : injector.parameter.simple = other.parameter.simple := by
    rwa [h.name.2, h'.name.2, String.append_left_inj] at hname
  have hparameter : injector.parameter = other.parameter :=
    calc
      injector.parameter = ⟨injector.package, injector.parameter.simple⟩ := by rw [← h.parameter]
      _ = ⟨other.package, other.parameter.simple⟩ := by rw [hpackage, hsimple]
      _ = other.parameter := by rw [← h'.parameter]
  exact ⟨hpackage, hname, hparameter, wirings_eq_of_bodyLines_eq hassignments hothers hbody⟩

/-- The assignments of the injectors of parsed files are readable. -/
theorem isReadable_of_generate {sources : List (String × String)} {files : List File}
    {plan : List Injector} (hparsed : (parseAll sources).outcome = .ok files)
    (hplan : (generate files).outcome = .ok plan) (h : injector ∈ plan) :
    ∀ assignment ∈ injector.assignments, assignment.IsReadable := by
  intro assignment hassignment
  have hlegal := namesAreLegal_of_parseAll hparsed
  obtain ⟨file, hfile, consumer, hconsumer, declaring, hdeclaring, entry, hentry, hwires⟩ :=
    exists_wires_of_generate hplan h
  obtain ⟨field, hfield, hfills⟩ := exists_of_forall₂_mem hwires.assignments hassignment
  have hname : IsSimple field.name :=
    ((hlegal file hfile).1.consumers consumer hconsumer).2 field (List.mem_filter.mp hfield).1
  obtain ⟨hcomponent, hwrappers, -⟩ := (hlegal declaring hdeclaring).1.components entry hentry
  refine ⟨?_, ?_, ?_⟩
  · rw [hfills.name]
    exact ⟨hname.notMem (by decide), hname.notMem (by decide)⟩
  · rw [hfills.singleton, String.toList_append]
    have hdot := hcomponent.notMem (c := '.') (by decide)
    have hfeed := hcomponent.notMem (c := '\n') (by decide)
    simp [hdot, hfeed]
  · intro accessor haccessor
    have howned := hfills.accessor
    rw [haccessor] at howned
    have hfeed := (hwrappers _ howned.1).notMem (c := '\n') (by decide)
    rw [howned.2, String.toList_append, List.mem_append, not_or] at hfeed
    exact hfeed.2

/-- Of the injectors of parsed files, those with the same unit are the same class, take the same
parameter, and fill the same fields, in order, through the same accessors of singletons with the
same simple name. -/
theorem wirings_eq_of_render_eq {sources sources' : List (String × String)}
    {files files' : List File} {plan plan' : List Injector}
    (hparsed : (parseAll sources).outcome = .ok files)
    (hplan : (generate files).outcome = .ok plan)
    (hparsed' : (parseAll sources').outcome = .ok files')
    (hplan' : (generate files').outcome = .ok plan') (hoptions : options.IsPlain)
    (hinjector : injector ∈ plan) (hother : other ∈ plan')
    (hrender : render injector options = render other options) :
    injector.package = other.package ∧ injector.name = other.name ∧
      injector.parameter = other.parameter ∧
      injector.assignments.map Assignment.wiring = other.assignments.map Assignment.wiring :=
  (isLegal_of_generate hparsed hplan injector hinjector).wirings_eq
    (isLegal_of_generate hparsed' hplan' other hother)
    (isReadable_of_generate hparsed hplan hinjector)
    (isReadable_of_generate hparsed' hplan' hother) hoptions.keepLines hrender

/-- The source of a class with a marked field. -/
def markedSource : String := "package app;class K\x7b@InjectPreference Preference_B b;\x7d"

/-- The document of the source. -/
def markedDocument : Document where
  atStart := []
  package := some { beforeName := [.blank ' '], name := ⟨"app".toList, []⟩, beforeEnd := [] }
  items := [([], .consumer {
    beforeName := [.blank ' '], name := ['K'], beforeBody := []
    fields := [([], {
      decorations := [([], .annotated [] ⟨"InjectPreference".toList, []⟩ [.blank ' '] none)]
      beforeType := []
      type := .plain ⟨"Preference_B".toList, []⟩ [.blank ' '] []
      beforeName := [], name := ['b'], beforeEnd := [] })]
    beforeEnd := [] })]
  atEnd := []

/-- The file of the source. -/
def markedFile : File :=
  ⟨"b.prefs", "app", [], [⟨"app", "K", [⟨"b", "Preference_B", true⟩]⟩]⟩

/-- The source is parsed by way of its document. -/
theorem ofText_markedSource : (File.ofText "b.prefs" markedSource).outcome = .ok markedFile := by
  have htext : markedSource.toList = markedDocument.text := by decide
  have hformed : markedDocument.WellFormed := by decide
  have hfile : (markedDocument.settle.file "b.prefs").outcome = .ok markedFile := by
    decide +kernel
  rw [File.ofText, htext, Document.ofText?_text hformed]
  exact hfile

/-- The wrapper is named as one. -/
theorem isWrapperName_of_mem_singleton : ∀ name ∈ ["Preference_B"], isWrapperName name = true :=
  List.forall_mem_singleton.mpr rfl

/-- The files of the class and of a component in a package, which owns the wrapper. -/
def markedFiles (package : String) : List File := [
  { path := "a.prefs", package := package, classes := []
    components := [{
      component := {
        package := package, className := "C", wrappers := ["Preference_B"]
        visible := isVisible_letter, nodup := List.nodup_singleton _
        wrapperNames := isWrapperName_of_mem_singleton }
      injects := ["app.K"] }] },
  markedFile]

/-- The injector of the class, from the component in a package. -/
def markedInjector (package : String) : Injector where
  name := "K_Injector"
  package := "app"
  parameter := ⟨"app", "K"⟩
  component := ⟨package, "PreferenceComponent_C"⟩
  assignments := [⟨"b", ⟨⟨package, "PreferenceComponent_C"⟩, some "B"⟩⟩]

/-- A component in the unnamed package, and one in that of the class, give different injectors with
the same unit, which are wired alike. -/
theorem wirings_eq_of_render_eq_marked :
    (parseAll [("a.prefs", "component C{entities Preference_B;inject app.K;}"),
      ("b.prefs", markedSource)]).outcome = .ok (markedFiles "") ∧
    (generate (markedFiles "")).outcome = .ok [markedInjector ""] ∧
    (parseAll [("a.prefs", "package app;component C{entities Preference_B;inject K;}"),
      ("b.prefs", markedSource)]).outcome = .ok (markedFiles "app") ∧
    (generate (markedFiles "app")).outcome = .ok [markedInjector "app"] ∧
    Options.IsPlain {} ∧ markedInjector "" ≠ markedInjector "app" ∧
    render (markedInjector "") {} = render (markedInjector "app") {} ∧
    (markedInjector "").assignments.map Assignment.wiring =
      (markedInjector "app").assignments.map Assignment.wiring := by
  have hparsed : (parseAll [("a.prefs", "component C{entities Preference_B;inject app.K;}"),
      ("b.prefs", markedSource)]).outcome = .ok (markedFiles "") := by
    rw [parseAll, Reported.outcome_forEach_eq_ok]
    exact .cons (by decide +kernel) (.cons ofText_markedSource .nil)
  have hparsed' : (parseAll [("a.prefs",
      "package app;component C{entities Preference_B;inject K;}"),
      ("b.prefs", markedSource)]).outcome = .ok (markedFiles "app") := by
    rw [parseAll, Reported.outcome_forEach_eq_ok]
    exact .cons (by decide +kernel) (.cons ofText_markedSource .nil)
  have hplan : (generate (markedFiles "")).outcome = .ok [markedInjector ""] := by
    decide +kernel
  have hplan' : (generate (markedFiles "app")).outcome = .ok [markedInjector "app"] := by
    decide +kernel
  have hoptions : Options.IsPlain {} :=
    ⟨annotationIsLegal_default.imp_right And.left, by simp⟩
  have hrender : render (markedInjector "") {} = render (markedInjector "app") {} := by
    decide +kernel
  obtain ⟨-, -, -, hwirings⟩ := wirings_eq_of_render_eq hparsed hplan hparsed' hplan' hoptions
    (List.mem_singleton_self _) (List.mem_singleton_self _) hrender
  have hdiffer : markedInjector "" ≠ markedInjector "app" := by simp [markedInjector]
  exact ⟨hparsed, hplan, hparsed', hplan', hoptions, hdiffer, hrender, hwirings⟩

end PreferenceInjector
