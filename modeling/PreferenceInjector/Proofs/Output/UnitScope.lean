import PreferenceInjector.CompilationUnit
import PreferenceInjector.Proofs.FileTree.PathTexts
import PreferenceInjector.Proofs.Generation.Wiring

/-!
# Simple names in compilation units

The meaning of a simple name in a unit is decided by what comes before the body of its class: the
package, the imported types and the name of the class itself. It can be read off the text line by
line, since the lines of a comment start with a character that starts no clause. A unit that imports
just the types of another package gives each of some types its simple name exactly when no two of
them, the declared class included, share one.
-/

namespace PreferenceInjector.CompilationUnit

/-- What decides the meaning of simple names in a unit. -/
structure Scope where
  /-- The package of the unit. -/
  package : String
  /-- The imported types, in order. -/
  imports : List TypeRef
  /-- The class that the unit declares. -/
  declared : String
  deriving DecidableEq, Repr

namespace Scope

variable {scope : Scope} {types : List TypeRef}

/-- The declared class as a type. -/
def declaredType (scope : Scope) : TypeRef := ⟨scope.package, scope.declared⟩

/-- No two imports have the same simple name, and none has that of the declared class. -/
def IsConsistent (scope : Scope) : Prop :=
  (∀ a ∈ scope.imports, ∀ b ∈ scope.imports, a.simple = b.simple → a = b) ∧
    ∀ a ∈ scope.imports, a.simple ≠ scope.declared

instance : DecidablePred IsConsistent := fun _ => inferInstanceAs (Decidable (_ ∧ _))

/-- The type that a simple name denotes: the declared class, or the imported type of that name, or
else the class of that name in the package. Names denote nothing where imports conflict. -/
def denotes? (scope : Scope) (name : String) : Option TypeRef :=
  if scope.IsConsistent then
    if name = scope.declared then some scope.declaredType
    else some ((scope.imports.find? (·.simple == name)).getD ⟨scope.package, name⟩)
  else none

/-! ### Types under their simple names -/

/-- A simple name denotes at most one type, and that of the declared class only the class. -/
theorem eq_of_denotes?_declared {type : TypeRef} (h : scope.denotes? type.simple = some type)
    (hname : type.simple = scope.declared) : type = scope.declaredType := by
  rw [denotes?] at h
  split_ifs at h
  exact (Option.some_inj.mp h).symm

/-- An import is found under its simple name where no other one has that name. -/
theorem find?_imports (h : scope.IsConsistent) {type : TypeRef} (hmem : type ∈ scope.imports) :
    scope.imports.find? (·.simple == type.simple) = some type := by
  cases hfound : scope.imports.find? (·.simple == type.simple) with
  | none => simpa using List.find?_eq_none.mp hfound type hmem
  | some found =>
    have hname : found.simple = type.simple := by simpa using List.find?_some hfound
    rw [h.1 found (List.mem_of_find?_eq_some hfound) type hmem hname]

/-- Where just the types of other packages are imported, all types have their simple names exactly
when they share none, with each other or with the declared class. -/
theorem denotes?_iff (himports : ∀ type, type ∈ scope.imports ↔
      type ∈ types ∧ type.package ≠ scope.package) :
    (∀ type ∈ types, scope.denotes? type.simple = some type) ↔
      ∀ a ∈ scope.declaredType :: types, ∀ b ∈ scope.declaredType :: types,
        a.simple = b.simple → a = b := by
  constructor
  · intro h a ha b hb hname
    rcases List.mem_cons.mp ha with rfl | ha
    · rcases List.mem_cons.mp hb with rfl | hb
      · rfl
      · exact (eq_of_denotes?_declared (h b hb) hname.symm).symm
    · rcases List.mem_cons.mp hb with rfl | hb
      · exact eq_of_denotes?_declared (h a ha) hname
      · have hsame := h a ha
        rw [hname, h b hb] at hsame
        exact (Option.some_inj.mp hsame).symm
  · intro h
    have hunique : ∀ a ∈ types, ∀ b ∈ types, a.simple = b.simple → a = b :=
      fun a ha b hb => h a (List.mem_cons_of_mem _ ha) b (List.mem_cons_of_mem _ hb)
    have hdeclared : ∀ a ∈ types, a.simple = scope.declared → a = scope.declaredType :=
      fun a ha => h a (List.mem_cons_of_mem _ ha) _ List.mem_cons_self
    have hconsistent : scope.IsConsistent := by
      refine ⟨?_, ?_⟩
      · intro a ha b hb
        exact hunique a ((himports a).mp ha).1 b ((himports b).mp hb).1
      · intro a ha hname
        obtain ⟨hmem, hpackage⟩ := (himports a).mp ha
        exact hpackage (congrArg TypeRef.package (hdeclared a hmem hname))
    intro type htype
    rw [denotes?, if_pos hconsistent]
    by_cases hname : type.simple = scope.declared
    · rw [if_pos hname, hdeclared type htype hname]
    rw [if_neg hname]
    by_cases hpackage : type.package = scope.package
    · -- An import of that name would be the type itself, and lie in another package.
      have hnone : scope.imports.find? (·.simple == type.simple) = none := by
        rw [List.find?_eq_none]
        intro found hfound hsame
        obtain ⟨hmem, hother⟩ := (himports found).mp hfound
        rw [hunique found hmem type htype (by simpa using hsame)] at hother
        exact hother hpackage
      rw [hnone, Option.getD_none, ← hpackage]
    · rw [find?_imports hconsistent ((himports type).mpr ⟨htype, hpackage⟩), Option.getD_some]

/-! ### Reading the text -/

/-- The beginning of a text, up to a character. -/
def upTo (stop : Char) (text : String) : String :=
  String.ofList (text.toList.takeWhile (· != stop))

/-- The scope that the lines of a unit describe, up to the line on which its class begins. -/
def ofLines? : List String → Option Scope
  | [] => none
  | line :: rest =>
    match dropStem? "public class " line, dropStem? "package " line, dropStem? "import " line with
    | some name, _, _ => some ⟨"", [], upTo ' ' name⟩
    | none, some name, _ =>
      (ofLines? rest).map fun scope => { scope with package := upTo ';' name }
    | none, none, some name =>
      (ofLines? rest).map fun scope =>
        { scope with imports := TypeRef.ofQualified (upTo ';' name) :: scope.imports }
    | none, none, none => ofLines? rest

/-- The scope that the text of a unit describes. -/
def ofText? (text : String) : Option Scope := ofLines? (splitAt '\n' text)

/-- The beginning of a text up to a character that is not in it. -/
theorem upTo_append {stop : Char} {text rest : String} (h : stop ∉ text.toList)
    (hrest : rest.toList.head? = some stop) : upTo stop (text ++ rest) = text := by
  have hall : ∀ c ∈ text.toList, (c != stop) = true := by
    intro c hc
    rw [bne_iff_ne]
    rintro rfl
    exact h hc
  have hstop : rest.toList.takeWhile (· != stop) = [] := by
    cases hlist : rest.toList with
    | nil => rfl
    | cons c more =>
      rw [hlist] at hrest
      cases hrest
      simp
  rw [upTo, String.toList_append, List.takeWhile_append_of_pos hall, hstop, List.append_nil,
    String.ofList_toList]

/-- A text that does not go on from a stem has none of it. -/
theorem dropStem?_eq_none {stem text : String} (h : ¬ stem.toList <+: text.toList) :
    dropStem? stem text = none := by
  rw [dropStem?, if_neg]
  rwa [List.isPrefixOf_iff_prefix]

variable {rest lines : List String} {name : String}

/-- The line on which the class begins ends the reading. -/
theorem ofLines?_class (h : ' ' ∉ name.toList) :
    ofLines? (("public class " ++ name ++ " \x7b") :: rest) = some ⟨"", [], name⟩ := by
  have hclass : dropStem? "public class " ("public class " ++ name ++ " \x7b") =
      some (name ++ " \x7b") := dropStem?_eq_some_iff.mpr (String.append_assoc ..)
  rw [ofLines?, hclass]
  simp only
  rw [upTo_append h rfl]

/-- A package clause gives the package. -/
theorem ofLines?_package (h : ';' ∉ name.toList) :
    ofLines? (("package " ++ name ++ ";") :: rest) =
      (ofLines? rest).map fun scope => { scope with package := name } := by
  have hclass : dropStem? "public class " ("package " ++ name ++ ";") = none :=
    dropStem?_eq_none (by simp)
  have hpackage : dropStem? "package " ("package " ++ name ++ ";") = some (name ++ ";") :=
    dropStem?_eq_some_iff.mpr (String.append_assoc ..)
  rw [ofLines?, hclass, hpackage]
  simp only
  rw [upTo_append h rfl]

/-- An import gives an imported type. -/
theorem ofLines?_import (h : ';' ∉ name.toList) :
    ofLines? (("import " ++ name ++ ";") :: rest) =
      (ofLines? rest).map fun scope =>
        { scope with imports := TypeRef.ofQualified name :: scope.imports } := by
  have hclass : dropStem? "public class " ("import " ++ name ++ ";") = none :=
    dropStem?_eq_none (by simp)
  have hpackage : dropStem? "package " ("import " ++ name ++ ";") = none :=
    dropStem?_eq_none (by simp)
  have himport : dropStem? "import " ("import " ++ name ++ ";") = some (name ++ ";") :=
    dropStem?_eq_some_iff.mpr (String.append_assoc ..)
  rw [ofLines?, hclass, hpackage, himport]
  simp only
  rw [upTo_append h rfl]

/-- The line starts no clause. -/
def StartsNone (line : String) : Prop :=
  ∀ c, line.toList.head? = some c → c ≠ 'p' ∧ c ≠ 'i'

/-- Other lines have no influence. -/
theorem ofLines?_skip (h : ∀ line ∈ lines, StartsNone line) :
    ofLines? (lines ++ rest) = ofLines? rest := by
  induction lines with
  | nil => rfl
  | cons line lines ih =>
    obtain ⟨hline, hlines⟩ := List.forall_mem_cons.mp h
    have hnone : ∀ stem : String, stem.toList.head? = some 'p' ∨ stem.toList.head? = some 'i' →
        dropStem? stem line = none := by
      intro stem hstem
      apply dropStem?_eq_none
      rintro ⟨tail, htail⟩
      cases hlist : stem.toList with
      | nil => simp [hlist] at hstem
      | cons c more =>
        rw [hlist] at hstem htail
        obtain ⟨hp, hi⟩ := hline c (by rw [← htail]; rfl)
        rcases hstem with hstem | hstem
        · exact hp (Option.some_inj.mp hstem)
        · exact hi (Option.some_inj.mp hstem)
    rw [List.cons_append, ofLines?, hnone _ (.inl rfl), hnone _ (.inl rfl), hnone _ (.inr rfl)]
    exact ih hlines

/-- Imports give the imported types in their order. -/
theorem ofLines?_imports {names : List String} (h : ∀ name ∈ names, ';' ∉ name.toList) :
    ofLines? (names.map (fun name => "import " ++ name ++ ";") ++ rest) =
      (ofLines? rest).map fun scope =>
        { scope with imports := names.map TypeRef.ofQualified ++ scope.imports } := by
  induction names with
  | nil => simp
  | cons name names ih =>
    obtain ⟨hname, hnames⟩ := List.forall_mem_cons.mp h
    rw [List.map_cons, List.cons_append, ofLines?_import hname, ih hnames, Option.map_map]
    rfl

end Scope

/-! ### The text of a unit -/

/-- The lines of a text have no line ends in them. -/
theorem newline_notMem_of_mem_textLines (text : List Char) :
    ∀ line ∈ textLines text, '\n' ∉ line := by
  fun_induction textLines text with
  | case1 => simp
  | case2 rest ih => simpa using ih
  | case3 rest ih => simpa using ih
  | case4 c rest hfeed _ hlines _ =>
    have hc : '\n' ≠ c := fun heq => hfeed heq.symm
    simpa using hc
  | case5 c rest hfeed _ line more hlines ih =>
    have hc : '\n' ≠ c := fun heq => hfeed heq.symm
    rw [hlines] at ih
    obtain ⟨hline, hmore⟩ := List.forall_mem_cons.mp ih
    refine List.forall_mem_cons.mpr ⟨?_, hmore⟩
    simpa [hc] using hline

/-- Writing comment terminators differently adds no line end. -/
theorem newline_notMem_escapeTerminator {text : List Char} (h : '\n' ∉ text) :
    '\n' ∉ escapeTerminator text := by
  fun_induction escapeTerminator text with
  | case1 rest ih => simp_all
  | case2 c rest _ ih => simp_all
  | case3 => exact h

/-- Lines without line ends in them are the lines of the text that they begin. -/
theorem splitAt_join {lines : List String} (h : ∀ line ∈ lines, '\n' ∉ line.toList)
    (rest : String) :
    splitAt '\n' (String.join (lines.map (· ++ "\n")) ++ rest) = lines ++ splitAt '\n' rest := by
  induction lines with
  | nil => simp
  | cons line lines ih =>
    obtain ⟨hline, hlines⟩ := List.forall_mem_cons.mp h
    have htext : (String.join ((line :: lines).map (· ++ "\n")) ++ rest).toList =
        line.toList ++ '\n' :: (String.join (lines.map (· ++ "\n")) ++ rest).toList := by
      simp [String.join_cons]
    have hrest := ih hlines
    rw [splitAt] at hrest
    rw [splitAt, htext, pieces_append_cons, pieces_of_notMem hline, List.map_append, hrest]
    simp

variable {injector : Injector} {options : Options}

/-- The lines of the documentation start no clause, and have no line ends in them. -/
theorem startsNone_of_mem_javadocLines {line : String} (h : line ∈ javadocLines options.javadoc) :
    Scope.StartsNone line ∧ '\n' ∉ line.toList := by
  rw [javadocLines] at h
  split_ifs at h with hempty
  · cases h
  · simp only [List.mem_append, List.mem_singleton, List.mem_map] at h
    rcases h with (rfl | ⟨text, htext, rfl⟩) | rfl
    · refine ⟨?_, by decide⟩
      rintro c ⟨⟩
      decide
    · refine ⟨?_, ?_⟩
      · intro c hc
        have hspace : c = ' ' := by simpa [eq_comm] using hc
        rw [hspace]
        decide
      · have hline := newline_notMem_of_mem_textLines options.javadoc.toList text htext
        simpa using newline_notMem_escapeTerminator hline
    · refine ⟨?_, by decide⟩
      rintro c ⟨⟩
      decide

/-- A name that fits into a clause on one line. -/
structure IsClauseName (name : String) : Prop where
  noLineEnd : '\n' ∉ name.toList
  noSemicolon : ';' ∉ name.toList
  noBlank : ' ' ∉ name.toList

/-- The scope of a unit: its package, what it imports, and its class. -/
def scopeOf (injector : Injector) (options : Options) : Scope where
  package := injector.package
  imports := (imports injector options).map TypeRef.ofQualified
  declared := injector.name

/-- The lines of the package clause, if there is one. -/
def packageLines (injector : Injector) : List String :=
  if injector.package.isEmpty then [] else ["package " ++ injector.package ++ ";", ""]

/-- The lines of the imports, if there are any. -/
def importLines (names : List String) : List String :=
  match names with
  | [] => []
  | types => types.map (fun type => "import " ++ type ++ ";") ++ [""]

/-- The line on which the class begins. -/
def classLine (injector : Injector) : String := "public class " ++ injector.name ++ " \x7b"

/-- The lines of a unit up to the one on which its class begins. -/
def headLines (injector : Injector) (options : Options) : List String :=
  packageLines injector ++ importLines (imports injector options) ++
    javadocLines options.javadoc ++ [classLine injector]

/-- A unit is its head and the body of its class. -/
theorem unitLines_eq (injector : Injector) (options : Options) :
    unitLines injector options =
      headLines injector options ++ (classLines injector options).tail := by
  have hclass : classLines injector options =
      [classLine injector] ++ (classLines injector options).tail := rfl
  rw [unitLines, hclass, headLines, ← List.append_assoc]
  rfl

/-- The lines of the head have no line ends in them. -/
theorem newline_notMem_of_mem_headLines (hpackage : '\n' ∉ injector.package.toList)
    (himports : ∀ type ∈ imports injector options, '\n' ∉ type.toList)
    (hname : '\n' ∉ injector.name.toList) :
    ∀ line ∈ headLines injector options, '\n' ∉ line.toList := by
  have hpackageLines : ∀ line ∈ packageLines injector, '\n' ∉ line.toList := by
    rw [packageLines]
    split_ifs with hempty
    · exact List.forall_mem_nil _
    · simp [hpackage]
  have himportLines : ∀ line ∈ importLines (imports injector options), '\n' ∉ line.toList := by
    unfold importLines
    split
    · exact List.forall_mem_nil _
    · intro line hline
      rcases List.mem_append.mp hline with hline | hline
      · obtain ⟨type, htype, rfl⟩ := List.mem_map.mp hline
        simp [himports type htype]
      · rw [List.mem_singleton.mp hline]
        exact List.not_mem_nil
  rw [headLines]
  simp only [List.forall_mem_append]
  refine ⟨⟨⟨hpackageLines, himportLines⟩, ?_⟩, ?_⟩
  · exact fun line hline => (startsNone_of_mem_javadocLines hline).2
  · simp [classLine, hname]

/-- The head of a unit tells its scope. -/
theorem ofLines?_headLines (hpackage : IsClauseName injector.package)
    (himports : ∀ type ∈ imports injector options, IsClauseName type)
    (hname : IsClauseName injector.name) (rest : List String) :
    Scope.ofLines? (headLines injector options ++ rest) = some (scopeOf injector options) := by
  have hblank : ∀ line ∈ [""], Scope.StartsNone line := by
    rintro line hline c hc
    rw [List.mem_singleton.mp hline] at hc
    cases hc
  have hclass : Scope.ofLines? (javadocLines options.javadoc ++ (classLine injector :: rest)) =
      some ⟨"", [], injector.name⟩ := by
    rw [Scope.ofLines?_skip fun line hline => (startsNone_of_mem_javadocLines hline).1]
    exact Scope.ofLines?_class hname.noBlank
  have hread : Scope.ofLines? (importLines (imports injector options) ++
      (javadocLines options.javadoc ++ (classLine injector :: rest))) =
      some ⟨"", (imports injector options).map TypeRef.ofQualified, injector.name⟩ := by
    unfold importLines
    split
    · next hnone => rw [List.nil_append, hclass, hnone, List.map_nil]
    · have hsemicolons := fun name hmem => (himports name hmem).noSemicolon
      rw [List.append_assoc, Scope.ofLines?_imports hsemicolons, Scope.ofLines?_skip hblank,
        hclass, Option.map_some, List.append_nil]
  rw [headLines, List.append_assoc, List.append_assoc, List.append_assoc, List.singleton_append,
    packageLines]
  split_ifs with hempty
  · have hunnamed : injector.package = "" := by simpa using hempty
    rw [List.nil_append, hread, scopeOf, hunnamed]
  · change Scope.ofLines? (("package " ++ injector.package ++ ";") :: ([""] ++ _)) = _
    rw [Scope.ofLines?_package hpackage.noSemicolon, Scope.ofLines?_skip hblank, hread]
    rfl

/-- The scope that the text of a unit describes is that of its injector. -/
theorem ofText?_render (hpackage : IsClauseName injector.package)
    (himports : ∀ type ∈ imports injector options, IsClauseName type)
    (hname : IsClauseName injector.name) :
    Scope.ofText? (render injector options) = some (scopeOf injector options) := by
  have hjoin : render injector options =
      String.join ((headLines injector options).map (· ++ "\n")) ++
        String.join ((classLines injector options).tail.map (· ++ "\n")) := by
    rw [render, unitLines_eq, List.map_append, String.join_append]
  rw [Scope.ofText?, hjoin, splitAt_join (newline_notMem_of_mem_headLines hpackage.noLineEnd
    (fun type htype => (himports type htype).noLineEnd) hname.noLineEnd)]
  exact ofLines?_headLines hpackage himports hname _

end PreferenceInjector.CompilationUnit
