import PreferenceInjector.Proofs.Output.SourcePaths
import PreferenceInjector.Proofs.Output.UnitScope
import PreferenceInjector.Proofs.QualifiedNames

/-!
# What names mean in generated units

A generated unit writes the parameter type, the singleton and the annotation under their simple
names, and imports those of another package. Whether a type is imported is decided from its package
alone, so two types with the same simple name get in each other's way. The names mean what the
injector means exactly when no two of the types, the generated class included, share one.
-/

namespace PreferenceInjector

open Declaration CompilationUnit

/-! ### Injectors of parsed files -/

/-- The names of an injector are made of identifiers, and all assignments read from its
component. -/
structure Injector.IsLegal (injector : Injector) : Prop where
  package : injector.package = "" ∨ IsQualified injector.package
  parameter : injector.parameter.package = injector.package
  name : IsSimple injector.parameter.simple ∧
    injector.name = injector.parameter.simple ++ "_Injector"
  componentPackage : injector.component.package = "" ∨ IsQualified injector.component.package
  componentName : ∃ name, IsSimple name ∧
    injector.component.simple = "PreferenceComponent_" ++ name
  assignments : ∀ assignment ∈ injector.assignments,
    assignment.source.singleton = injector.component

/-- All components of a document lie in its package. -/
theorem Declaration.ItemsDeclare.entriesInPackage {package : String}
    {items : List (Gap × ItemTree)} {entries : List Entry} {consumers : List Consumer}
    (h : ItemsDeclare package items entries consumers) :
    ∀ entry ∈ entries, entry.component.package = package := by
  induction h with
  | nil => exact List.forall_mem_nil _
  | component htree _ ih => exact List.forall_mem_cons.mpr ⟨htree.inPackage, ih⟩
  | consumer _ _ ih => exact ih

/-- The names of parsed files are legal, and what they declare lies in their packages. -/
theorem namesAreLegal_of_parseAll {sources : List (String × String)} {files : List File}
    (h : (parseAll sources).outcome = .ok files) : ∀ file ∈ files, file.NamesAreLegal ∧
      (∀ entry ∈ file.components, entry.component.package = file.package) ∧
      ∀ consumer ∈ file.classes, consumer.package = file.package := by
  intro file hfile
  rw [parseAll, Reported.outcome_forEach_eq_ok] at h
  obtain ⟨⟨path, text⟩, -, hparsed⟩ := exists_of_forall₂_mem h hfile
  obtain ⟨document, hdocument, hdeclared⟩ := File.exists_of_ofText hparsed
  obtain ⟨hformed, -⟩ := Document.of_ofText? hdocument
  have hdeclares := hformed.declares hdeclared
  exact ⟨hdeclares.namesAreLegal hformed, hdeclares.items.entriesInPackage,
    hdeclares.items.inPackage⟩

/-- Every injector of a plan wires a declared class to a declared component. -/
theorem exists_wires_of_generate {files : List File} {plan : List Injector}
    (hplan : (generate files).outcome = .ok plan) {injector : Injector} (h : injector ∈ plan) :
    ∃ file ∈ files, ∃ consumer ∈ file.classes, ∃ other ∈ files, ∃ entry ∈ other.components,
      entry.component.Wires consumer injector := by
  obtain ⟨-, -, hanswers⟩ := generate_eq_ok.mp hplan
  obtain ⟨request, hrequest, consumer, hconsumer, -, hwires⟩ := exists_of_forall₂_mem hanswers h
  obtain ⟨entry, hentry, hrequested⟩ := List.mem_flatMap.mp hrequest
  obtain ⟨target, -, rfl⟩ := List.mem_map.mp hrequested
  obtain ⟨file, hfile, hdeclared⟩ := List.mem_flatMap.mp hconsumer
  obtain ⟨other, hother, hlisted⟩ := List.mem_flatMap.mp hentry
  exact ⟨file, hfile, consumer, hdeclared, other, hother, entry, hlisted, hwires⟩

/-- The injectors of parsed files have legal names. -/
theorem isLegal_of_generate {sources : List (String × String)} {files : List File}
    {plan : List Injector} (hparsed : (parseAll sources).outcome = .ok files)
    (hplan : (generate files).outcome = .ok plan) : ∀ injector ∈ plan, injector.IsLegal := by
  intro injector hinjector
  have hlegal := namesAreLegal_of_parseAll hparsed
  obtain ⟨file, hfile, consumer, hdeclared, other, hother, entry, hlisted, hwires⟩ :=
    exists_wires_of_generate hplan hinjector
  obtain ⟨hnames, -, hclasses⟩ := hlegal file hfile
  obtain ⟨hothers, hcomponents, -⟩ := hlegal other hother
  have hname := (hnames.consumers consumer hdeclared).1
  have hcomponent := (hothers.components entry hlisted).1
  refine ⟨?_, ?_, ?_, ?_, ?_, ?_⟩
  · rw [hwires.inPackage, hclasses consumer hdeclared]
    exact hnames.package
  · rw [hwires.parameter, hwires.inPackage]
  · rw [hwires.parameter]
    exact ⟨hname, hwires.name⟩
  · rw [hwires.singleton, hcomponents entry hlisted]
    exact hothers.package
  · rw [hwires.singleton]
    exact ⟨_, hcomponent, rfl⟩
  · intro assignment hassignment
    obtain ⟨field, -, hfills⟩ := exists_of_forall₂_mem hwires.assignments hassignment
    rw [hfills.singleton, hwires.singleton]

/-! ### Clauses -/

/-- No identifier or dotted name holds a character that neither has. -/
theorem Declaration.IsQualified.notMem {name : String} (h : IsQualified name) {c : Char}
    (hpart : isIdentifierPart c = false) (hdot : c ≠ '.') : c ∉ name.toList := by
  obtain ⟨dotted, ⟨hfirst, hmore⟩, rfl⟩ := h
  have hnone : ∀ text : List Char, IsIdentifier text → c ∉ text := by
    intro text htext hmem
    rw [htext.isIdentifierPart c hmem] at hpart
    cases hpart
  rw [String.toList_ofList, Dotted.text, List.mem_append, not_or]
  refine ⟨hnone _ hfirst, ?_⟩
  simp only [List.mem_flatMap, List.mem_cons, not_exists, not_and, not_or]
  exact fun part hpart => ⟨hdot, hnone part (hmore part hpart)⟩

/-- A missing or dotted name fits into a clause. -/
theorem isClauseName_of_isQualified {name : String} (h : name = "" ∨ IsQualified name) :
    IsClauseName name := by
  rcases h with rfl | h
  · exact ⟨List.not_mem_nil, List.not_mem_nil, List.not_mem_nil⟩
  · exact ⟨h.notMem (by decide) (by decide), h.notMem (by decide) (by decide),
      h.notMem (by decide) (by decide)⟩

/-- An identifier fits into a clause. -/
theorem isClauseName_of_isSimple {name : String} (h : IsSimple name) : IsClauseName name :=
  ⟨h.notMem (by decide), h.notMem (by decide), h.notMem (by decide)⟩

/-- Names that fit into a clause do so side by side. -/
theorem CompilationUnit.IsClauseName.append {name other : String} (h : IsClauseName name)
    (h' : IsClauseName other) : IsClauseName (name ++ other) := by
  obtain ⟨hline, hsemicolon, hblank⟩ := h
  obtain ⟨hline', hsemicolon', hblank'⟩ := h'
  constructor <;> simp_all

/-! ### Units of legal injectors -/

variable {injector : Injector} {options : Options}

/-- The annotation is a class in a named package, or there is none. -/
def CompilationUnit.Options.AnnotationIsLegal (options : Options) : Prop :=
  options.annotationType = "" ∨ IsQualified options.annotationType ∧
    (splitQualified options.annotationType).1 ≠ ""

/-- The annotation as a type, if there is one. -/
def CompilationUnit.Options.annotations (options : Options) : List TypeRef :=
  if options.annotationType = "" then [] else [TypeRef.ofQualified options.annotationType]

/-- The types that a unit writes under their simple names. -/
def CompilationUnit.writtenTypes (injector : Injector) (options : Options) : List TypeRef :=
  injector.parameter :: injector.component :: options.annotations

/-- The imports are the annotation and the component, each if it lies in another named package. -/
theorem mem_imports {name : String} : name ∈ imports injector options ↔
    (name = options.annotationType ∧ (splitQualified options.annotationType).1 ≠ "" ∧
      (splitQualified options.annotationType).1 ≠ injector.package) ∨
    (name = injector.component.qualified ∧ injector.component.package ≠ "" ∧
      injector.component.package ≠ injector.package) := by
  rw [imports, List.mem_mergeSort, mem_firstSeen, List.mem_append]
  have hcase : ∀ {package type : String},
      name ∈ (if package.isEmpty || package == injector.package then [] else [type]) ↔
        name = type ∧ package ≠ "" ∧ package ≠ injector.package := by
    intro package type
    split_ifs with hnone
    · simp at hnone ⊢
      tauto
    · simp at hnone ⊢
      tauto
  simp only [hcase]

/-- A qualified name fits into a clause when its parts do. -/
theorem isClauseName_qualify {package simple : String}
    (hpackage : package = "" ∨ IsQualified package) (hsimple : IsClauseName simple) :
    IsClauseName (qualify package simple) := by
  have hdot : IsClauseName "." := ⟨by decide, by decide, by decide⟩
  rw [qualify]
  split_ifs
  · exact hsimple
  · exact ((isClauseName_of_isQualified hpackage).append hdot).append hsimple

/-- The name of a legal injector fits into a clause. -/
theorem Injector.IsLegal.isClauseName_name (h : injector.IsLegal) : IsClauseName injector.name := by
  have hending : IsClauseName "_Injector" := ⟨by decide, by decide, by decide⟩
  rw [h.name.2]
  exact (isClauseName_of_isSimple h.name.1).append hending

/-- The qualified name of the component of a legal injector fits into a clause. -/
theorem Injector.IsLegal.isClauseName_component (h : injector.IsLegal) :
    IsClauseName injector.component.qualified := by
  obtain ⟨name, hname, hsimple⟩ := h.componentName
  have hstem : IsClauseName "PreferenceComponent_" := ⟨by decide, by decide, by decide⟩
  apply isClauseName_qualify h.componentPackage
  rw [hsimple]
  exact hstem.append (isClauseName_of_isSimple hname)

/-- The names that are imported fit into a clause. -/
theorem isClauseName_of_mem_imports (h : injector.IsLegal) (hoptions : options.AnnotationIsLegal)
    {name : String} (hname : name ∈ imports injector options) : IsClauseName name := by
  rcases mem_imports.mp hname with ⟨rfl, -, -⟩ | ⟨rfl, -, -⟩
  · exact isClauseName_of_isQualified (hoptions.imp_right And.left)
  · exact h.isClauseName_component

/-- The text of the unit of a legal injector describes its scope. -/
theorem Injector.IsLegal.ofText?_render (h : injector.IsLegal)
    (hoptions : options.AnnotationIsLegal) :
    Scope.ofText? (render injector options) = some (scopeOf injector options) := by
  apply CompilationUnit.ofText?_render (isClauseName_of_isQualified h.package)
  · exact fun name hname => isClauseName_of_mem_imports h hoptions hname
  · exact h.isClauseName_name

/-- The component of a legal injector is read back from its qualified name. -/
theorem Injector.IsLegal.ofQualified_component (h : injector.IsLegal) :
    TypeRef.ofQualified injector.component.qualified = injector.component := by
  obtain ⟨name, hname, hsimple⟩ := h.componentName
  rw [TypeRef.ofQualified_qualified_iff, hsimple]
  simpa using hname.notMem (c := '.') (by decide)

/-- Just the types of other packages are imported, when no component without a package is used in
one. -/
theorem mem_imports_scopeOf (h : injector.IsLegal) (hoptions : options.AnnotationIsLegal)
    (hnamed : injector.component.package = "" → injector.package = "") (type : TypeRef) :
    type ∈ (scopeOf injector options).imports ↔
      type ∈ writtenTypes injector options ∧ type.package ≠ (scopeOf injector options).package := by
  have hannotations : type ∈ options.annotations ↔
      type = TypeRef.ofQualified options.annotationType ∧
        (splitQualified options.annotationType).1 ≠ "" := by
    rw [Options.annotations]
    rcases hoptions with hnone | ⟨hname, hpackage⟩
    · have hempty : (splitQualified "").1 = "" := rfl
      simp [hnone, hempty]
    · have hfilled : options.annotationType ≠ "" := by
        intro hnone
        rw [hnone] at hpackage
        exact hpackage rfl
      simp [hfilled, hpackage]
  have hcomponent : injector.component.package ≠ injector.package →
      injector.component.package ≠ "" := by
    intro hother hunnamed
    exact hother (hunnamed.trans (hnamed hunnamed).symm)
  simp only [scopeOf, writtenTypes, List.mem_map, mem_imports, List.mem_cons, hannotations]
  constructor
  · intro himported
    obtain ⟨name, ⟨rfl, hpackage, hother⟩ | ⟨rfl, -, hother⟩, rfl⟩ := himported
    · exact ⟨.inr (.inr ⟨rfl, hpackage⟩), hother⟩
    · rw [h.ofQualified_component]
      exact ⟨.inr (.inl rfl), hother⟩
  · intro hwritten
    obtain ⟨rfl | rfl | ⟨rfl, hpackage⟩, hother⟩ := hwritten
    · exact (hother h.parameter).elim
    · exact ⟨_, .inr ⟨rfl, hcomponent hother, hother⟩, h.ofQualified_component⟩
    · exact ⟨_, .inl ⟨rfl, hpackage, hother⟩, rfl⟩

/-! ### The meaning of names -/

/-- In the text of the unit the simple names of the parameter type, of the singleton and of the
annotation, if there is one, denote these types. -/
def NamesMeanTypes (injector : Injector) (options : Options) : Prop :=
  ∃ scope, Scope.ofText? (render injector options) = some scope ∧
    scope.denotes? injector.parameter.simple = some injector.parameter ∧
    scope.denotes? injector.component.simple = some injector.component ∧
    (∀ assignment ∈ injector.assignments, scope.denotes? assignment.source.singleton.simple =
      some assignment.source.singleton) ∧
    (options.annotationType ≠ "" → scope.denotes? (simpleName options.annotationType) =
      some (TypeRef.ofQualified options.annotationType))

/-- No two of the generated class, the parameter type, the singleton and the annotation have the
same simple name. -/
def NamesAreApart (injector : Injector) (options : Options) : Prop :=
  ∀ a ∈ ⟨injector.package, injector.name⟩ :: writtenTypes injector options,
    ∀ b ∈ ⟨injector.package, injector.name⟩ :: writtenTypes injector options,
      a.simple = b.simple → a = b

/-- The names mean what they should when all written types have their simple names. -/
theorem Injector.IsLegal.namesMeanTypes_iff (h : injector.IsLegal)
    (hoptions : options.AnnotationIsLegal) : NamesMeanTypes injector options ↔
      ∀ type ∈ writtenTypes injector options,
        (scopeOf injector options).denotes? type.simple = some type := by
  have hsimple : (TypeRef.ofQualified options.annotationType).simple =
      simpleName options.annotationType := splitQualified_snd _
  have hannotations : (∀ type ∈ options.annotations,
      (scopeOf injector options).denotes? type.simple = some type) ↔
      (options.annotationType ≠ "" → (scopeOf injector options).denotes?
        (simpleName options.annotationType) =
          some (TypeRef.ofQualified options.annotationType)) := by
    rw [Options.annotations]
    split_ifs with hnone
    · simp [hnone]
    · simp [hnone, hsimple]
  rw [NamesMeanTypes, h.ofText?_render hoptions, writtenTypes]
  simp only [List.forall_mem_cons, hannotations, Option.some.injEq, exists_eq_left']
  constructor
  · intro hmean
    obtain ⟨hparameter, hcomponent, -, hannotation⟩ := hmean
    exact ⟨hparameter, hcomponent, hannotation⟩
  · intro hmean
    obtain ⟨hparameter, hcomponent, hannotation⟩ := hmean
    refine ⟨hparameter, hcomponent, ?_, hannotation⟩
    intro assignment hassignment
    rw [h.assignments assignment hassignment]
    exact hcomponent

/-- In the units of a plan of parsed files, the simple names mean the types of the injector exactly
when no two of them are the same. -/
theorem namesMeanTypes_iff_namesAreApart {sources : List (String × String)} {files : List File}
    {plan : List Injector} (hparsed : (parseAll sources).outcome = .ok files)
    (hplan : (generate files).outcome = .ok plan) {options : Options}
    (hoptions : options.AnnotationIsLegal) {injector : Injector} (hinjector : injector ∈ plan)
    (hnamed : injector.component.package = "" → injector.package = "") :
    NamesMeanTypes injector options ↔ NamesAreApart injector options := by
  have hlegal := isLegal_of_generate hparsed hplan injector hinjector
  rw [hlegal.namesMeanTypes_iff hoptions]
  exact Scope.denotes?_iff (mem_imports_scopeOf hlegal hoptions hnamed)

/-- The annotation that is written by default is a class in a named package. -/
theorem annotationIsLegal_default : Options.AnnotationIsLegal {} := by
  refine .inr ⟨⟨⟨"android".toList, ["support".toList, "annotation".toList, "NonNull".toList]⟩, ?_,
    by decide⟩, by decide⟩
  decide +kernel

/-- The file of a component that injects one class, which has a name. -/
def fileWith (name : String) : File where
  path := "a.prefs"
  package := "app"
  components := [{
    component := {
      package := "app", className := "C", wrappers := [], visible := isVisible_letter
      nodup := List.nodup_nil, wrapperNames := isWrapperName_of_mem_nil }
    injects := ["app." ++ name] }]
  classes := [⟨"app", name, []⟩]

/-- The injector of the class that has a name. -/
def injectorWith (name : String) : Injector where
  name := name ++ "_Injector"
  package := "app"
  parameter := ⟨"app", name⟩
  component := ⟨"app", "PreferenceComponent_C"⟩
  assignments := []

/-- A class of an ordinary name has its types under their simple names, since they are all
different. -/
theorem namesMeanTypes_iff_namesAreApart_sample :
    (parseAll [("a.prefs", "package app;component C{inject K;}class K{}")]).outcome =
        .ok [fileWith "K"] ∧
      (generate [fileWith "K"]).outcome = .ok [injectorWith "K"] ∧
      Options.AnnotationIsLegal {} ∧ injectorWith "K" ∈ [injectorWith "K"] ∧
      ((injectorWith "K").component.package = "" → (injectorWith "K").package = "") ∧
      (NamesMeanTypes (injectorWith "K") {} ↔ NamesAreApart (injectorWith "K") {}) := by
  have hfile : (File.ofText "a.prefs" "package app;component C{inject K;}class K{}").outcome =
      .ok (fileWith "K") := by decide +kernel
  have hparsed : (parseAll [("a.prefs",
      "package app;component C{inject K;}class K{}")]).outcome = .ok [fileWith "K"] := by
    rw [parseAll, Reported.outcome_forEach_eq_ok]
    exact .cons hfile .nil
  have hplan : (generate [fileWith "K"]).outcome = .ok [injectorWith "K"] := by decide +kernel
  have hmem : injectorWith "K" ∈ [injectorWith "K"] := List.mem_singleton_self _
  have hnamed : (injectorWith "K").component.package = "" → (injectorWith "K").package = "" := by
    decide
  exact ⟨hparsed, hplan, annotationIsLegal_default, hmem, hnamed,
    namesMeanTypes_iff_namesAreApart hparsed hplan annotationIsLegal_default hmem hnamed⟩

/-- A class that has the simple name of the annotation is not what its name means in the unit. -/
theorem class_name_denotes_annotation :
    ¬ ∀ (sources : List (String × String)) (files : List File) (plan : List Injector)
      (options : Options), (parseAll sources).outcome = .ok files →
        (generate files).outcome = .ok plan → options.AnnotationIsLegal →
          ∀ injector ∈ plan, (injector.component.package = "" → injector.package = "") →
            NamesMeanTypes injector options := by
  intro h
  have hfile : (File.ofText "a.prefs"
      "package app;component C{inject NonNull;}class NonNull{}").outcome =
        .ok (fileWith "NonNull") := by decide +kernel
  have hparsed : (parseAll [("a.prefs",
      "package app;component C{inject NonNull;}class NonNull{}")]).outcome =
        .ok [fileWith "NonNull"] := by
    rw [parseAll, Reported.outcome_forEach_eq_ok]
    exact .cons hfile .nil
  have hplan : (generate [fileWith "NonNull"]).outcome = .ok [injectorWith "NonNull"] := by
    decide +kernel
  have hlegal := isLegal_of_generate hparsed hplan _ (List.mem_singleton_self _)
  have hscope := hlegal.ofText?_render annotationIsLegal_default
  obtain ⟨scope, hread, hparameter, -⟩ := h _ _ _ {} hparsed hplan annotationIsLegal_default _
    (List.mem_singleton_self _) (by decide)
  cases hscope.symm.trans hread
  have hdenotes : (scopeOf (injectorWith "NonNull") {}).denotes? "NonNull" =
      some ⟨"android.support.annotation", "NonNull"⟩ := by decide +kernel
  exact absurd (hdenotes.symm.trans hparameter) (by decide)

end PreferenceInjector
