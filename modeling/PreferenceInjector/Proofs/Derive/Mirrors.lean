import PreferenceInjector.Proofs.Declaration.TypeTexts
import PreferenceInjector.Proofs.Derive.Expansion
import PreferenceInjector.Proofs.Generation.Comments

/-!
# Structures as declaration files

What a structure with an injector attribute says can be declared in a file as well: the component,
in the package made of the other segments of its path, with its wrappers, and the class with its
fields, the types of which have dots in place of double colons. The declared class is the one that
the structure is, except that its types keep their arguments. A type with arguments never resolves
where it is declared: its simple name ends in an angle bracket, and no wrapper's name does.
-/

namespace PreferenceInjector

open Declaration
open Derive (Described FieldType NamedField Path Token componentOf markerAttribute operator)

/-! ### Types -/

/-- A dotted name as a path, with arguments behind its last identifier. -/
def Declaration.Dotted.path (name : Dotted) (arguments : List Token) : Path where
  rooted := false
  segments := name.parts.dropLast.map (⟨·, []⟩) ++ [⟨String.ofList name.last, arguments⟩]

mutual

/-- The tokens of a type with double colons in place of the dots. -/
def Declaration.TypeTree.tokens : TypeTree → List Token
  | .plain name _ dimensions =>
    (name.path []).tokens ++ dimensions.map fun _ => .group .square []
  | .applied name _ arguments _ dimensions =>
    (name.path (operator "<" ++ arguments.tokens)).tokens ++
      dimensions.map fun _ => .group .square []

/-- The tokens of type arguments with the closing bracket. -/
def Declaration.TypeListTree.tokens : TypeListTree → List Token
  | .last _ type _ => type.tokens ++ operator ">"
  | .cons _ type _ rest => type.tokens ++ operator "," ++ rest.tokens

end

/-- A type is declared as the type of a field: a path with dots in place of the double colons and
with its arguments, or a single word that is no path. -/
inductive Declaration.TypeTree.Mirrors : TypeTree → FieldType → Prop where
  | plain (name : Dotted) (gap : Gap) : Mirrors (.plain name gap []) (.path (name.path []))
  | applied (name : Dotted) (gap : Gap) (arguments : TypeListTree) (after : Gap) :
      Mirrors (.applied name gap arguments after [])
        (.path (name.path (operator "<" ++ arguments.tokens)))
  | word (word : List Char) (gap : Gap) :
      Mirrors (.plain ⟨word, []⟩ gap []) (.other [.name (String.ofList word)])

/-- The type has no arguments. -/
def Derive.FieldType.IsUnapplied : FieldType → Prop
  | FieldType.path found => ∀ segment ∈ found.segments, segment.arguments = []
  | FieldType.other _ => True

/-! ### Declarations -/

/-- A field is declared: its name, its type without comments, and whether it is marked. -/
structure Declaration.FieldTree.Mirrors (tree : FieldTree) (field : NamedField) : Prop where
  name : String.ofList tree.name = field.name
  type : tree.type.Mirrors field.type
  bare : tree.TypeIsBare
  marked : (∃ decoration ∈ tree.decorations, decoration.2.Marks) ↔
    ∃ found ∈ field.attributes, found.isNamed markerAttribute = true

/-- The identifiers of the package; none without a package clause. -/
def Declaration.Document.packageParts (document : Document) : List String :=
  (document.package.map (·.name.parts)).getD []

/-- A document declares what the structure says and nothing else: the component, and the class,
which the component injects. -/
structure Declaration.Document.Mirrors (document : Document) (described : Described)
    (component : ComponentTree) (consumer : ClassTree) : Prop where
  formed : document.WellFormed
  components : componentTrees document.items = [component]
  classes : classTrees document.items = [consumer]
  path : described.path.names = document.packageParts ++ [String.ofList component.name]
  wrappers : component.entityNames.map (fun name => String.ofList name.last) = described.wrappers
  injects : component.injectNames.map (Dotted.target document.packageName) =
    [(consumer.consumer document.packageName).qualified]
  name : String.ofList consumer.name = described.item.name
  fields : List.Forall₂ (fun item field => item.2.Mirrors field) consumer.fields described.fields

/-! ### Declared types -/

/-- The last identifier of a dotted name is the last of its parts. -/
theorem Declaration.Dotted.parts_eq (name : Dotted) :
    name.parts.dropLast ++ [String.ofList name.last] = name.parts := by
  obtain ⟨first, more⟩ := name
  induction more generalizing first with
  | nil => rfl
  | cons part more ih =>
    have hlast : Dotted.last ⟨first, part :: more⟩ = Dotted.last ⟨part, more⟩ :=
      List.getLastD_cons ..
    have hparts : Dotted.parts ⟨first, part :: more⟩ =
        String.ofList first :: Dotted.parts ⟨part, more⟩ := rfl
    have hne : Dotted.parts ⟨part, more⟩ ≠ [] := by simp [Dotted.parts]
    rw [hlast, hparts, List.dropLast_cons_of_ne_nil hne, List.cons_append, ih]

/-- The names of a dotted name as a path. -/
theorem Declaration.Dotted.names_path (name : Dotted) (arguments : List Token) :
    (name.path arguments).names = name.parts := by
  rw [Path.names, Dotted.path, List.map_append, List.map_map]
  have hnames : name.parts.dropLast.map ((·.name) ∘ fun part => (⟨part, []⟩ : Derive.Segment)) =
      name.parts.dropLast := List.map_id _
  rw [hnames]
  exact name.parts_eq

/-- A dotted name as a path has the arguments that it is given. -/
theorem Declaration.Dotted.isUnapplied_path (name : Dotted) {arguments : List Token} :
    (FieldType.path (name.path arguments)).IsUnapplied ↔ arguments = [] := by
  constructor
  · intro h
    exact h _ (List.mem_append_right _ (List.mem_singleton_self _))
  · intro hnone segment hsegment
    rcases List.mem_append.mp hsegment with hbefore | hlast
    · obtain ⟨part, -, rfl⟩ := List.mem_map.mp hbefore
      rfl
    · rw [List.mem_singleton.mp hlast]
      exact hnone

variable {tree : FieldTree} {field : NamedField} {rest : List Char}

/-- A field is declared with its name, and marked when it is. -/
theorem Declaration.FieldTree.Mirrors.isRetyped (h : tree.Mirrors field)
    (hlegal : Legal tree.pieces rest) : tree.field.IsRetyped field.toField := by
  refine ⟨h.name, ?_⟩
  rw [Bool.eq_iff_iff, (FieldTree.declares_field hlegal).marked, h.marked]
  simp [NamedField.toField]

/-- A bare type is declared as it is, unless it has arguments: then its simple name is no
identifier. -/
theorem Declaration.TypeTree.Mirrors.declared {type : TypeTree} {written : FieldType}
    (h : type.Mirrors written) (hlegal : Legal type.pieces rest)
    (hbare : ∀ piece, .skipped piece ∈ type.pieces → ¬ piece.IsComment) :
    (written.IsUnapplied ∧ String.ofList (trimmed type.text) = written.declared) ∨
      (¬ written.IsUnapplied ∧
        ∃ c ∈ (simpleName (String.ofList (trimmed type.text))).toList,
          isIdentifierPart c = false) := by
  cases h with
  | plain name gap =>
    left
    refine ⟨name.isUnapplied_path.mpr rfl, ?_⟩
    have hgap : ∀ piece ∈ gap, ¬ piece.IsComment :=
      fun piece hpiece => hbare piece (by simp [TypeTree.pieces, Gap.pieces, hpiece])
    rw [trimmed_plain hlegal hgap, FieldType.declared, name.names_path]
    exact name.string_eq_intercalate
  | applied name gap arguments after =>
    right
    refine ⟨name.isUnapplied_path.not.mpr (by simp [operator, Derive.marksOf]), ?_⟩
    exact TypeTree.exists_mem_simpleName hlegal hbare (TypeTree.not_isName (Or.inl trivial))
  | word word gap =>
    left
    refine ⟨trivial, ?_⟩
    have hgap : ∀ piece ∈ gap, ¬ piece.IsComment :=
      fun piece hpiece => hbare piece (by simp [TypeTree.pieces, Gap.pieces, hpiece])
    rw [trimmed_plain hlegal hgap]
    simp [FieldType.declared, Derive.textOf, Token.text, Dotted.text]

/-- A field is declared with its type, unless the type has arguments: then the simple name of the
declared type is no identifier. -/
theorem Declaration.FieldTree.Mirrors.declared (h : tree.Mirrors field)
    (hlegal : Legal tree.pieces rest) :
    (field.type.IsUnapplied ∧ tree.field.type = field.toField.type) ∨
      (¬ field.type.IsUnapplied ∧
        ∃ c ∈ (simpleName tree.field.type).toList, isIdentifierPart c = false) := by
  obtain ⟨r, htype⟩ := FieldTree.legal_type hlegal
  exact h.type.declared htype fun piece hpiece => h.bare piece (List.mem_append_left _ hpiece)

end PreferenceInjector
