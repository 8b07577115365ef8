import PreferenceInjector.Derive.Expansion
import PreferenceInjector.Proofs.Reported

/-!
# The form of the attribute

The attribute that describes a component holds arguments with commas between them and possibly
after the last one. An argument gives the component, by a path in a string, or lists wrappers by
their names, again with commas. The last path that is given counts, and the lists of wrappers add
up. Reading accepts attributes of this form and no others.
-/

namespace PreferenceInjector.Derive

/-- The tokens are those of the values with commas between them and possibly after the last; there
is one value at least. -/
inductive InCommas {α : Type} (IsWrittenAs : α → List Token → Prop) : List α → List Token → Prop
  | last {value : α} {written : List Token} (h : IsWrittenAs value written) :
      InCommas IsWrittenAs [value] written
  | comma {value : α} {written : List Token} (h : IsWrittenAs value written) (joint : Bool) :
      InCommas IsWrittenAs [value] (written ++ [.mark ',' joint])
  | more {value : α} {values : List α} {written rest : List Token}
      (h : IsWrittenAs value written) (joint : Bool) (hrest : InCommas IsWrittenAs values rest) :
      InCommas IsWrittenAs (value :: values) (written ++ .mark ',' joint :: rest)

/-- The literal is a string without a suffix, and its value is the text of the path, which may have
arguments in angle brackets. -/
def LiteralIsPath (literal : String) (path : Path) : Prop :=
  ∃ value tokens, stringValue? literal = some (value, []) ∧ tokensOf? value = some tokens ∧
    pathOf angledArguments tokens = .ok path

/-- An argument of the attribute. -/
inductive InjectorArgument where
  /-- The path of the component. -/
  | component (path : Path)
  /-- Names of wrappers. -/
  | wrappers (names : List String)

namespace InjectorArgument

/-- The path that an argument gives. -/
def path? : InjectorArgument → Option Path
  | component path => some path
  | wrappers _ => none

/-- The wrappers that an argument lists. -/
def names : InjectorArgument → List String
  | component _ => []
  | wrappers names => names

/-- How an argument is written: `component = "path"` or `wrappers(names)`. -/
inductive IsWrittenAs : InjectorArgument → List Token → Prop
  | component {literal : String} {path : Path} (h : LiteralIsPath literal path) (joint : Bool) :
      IsWrittenAs (.component path) [.name "component", .mark '=' joint, .literal literal]
  | wrappers {names : List String} {content : List Token}
      (h : InCommas (fun name tokens => tokens = [.name name]) names content) :
      IsWrittenAs (.wrappers names) [.name "wrappers", .group .round content]

end InjectorArgument

/-- The first attribute named `injector` is of the supported form and describes a component: the
last path that it gives is that of the component, and it lists the wrappers. -/
def Item.DescribesComponent (item : Item) (path : Path) (wrappers : List String) : Prop :=
  ∃ before found after content arguments,
    item.attributes = before ++ found :: after ∧
    (∀ earlier ∈ before, earlier.path.name? ≠ some "injector") ∧
    found.path.name? = some "injector" ∧ found.arguments = .list content ∧
    InCommas InjectorArgument.IsWrittenAs arguments content ∧
    (arguments.filterMap (·.path?)).getLast? = some path ∧ wrappers = arguments.flatMap (·.names)

/-! ### Arguments with commas between them -/

/-- The tokens may follow an argument. -/
def FollowsArgument (rest : List Token) : Prop :=
  rest = [] ∨ ∃ joint more, rest = .mark ',' joint :: more

/-- One step reads exactly the values that are written so, in front of what may follow them. -/
structure ReadsValues {α β : Type} (IsWrittenAs : β → List Token → Prop) (add : α → β → α)
    (step : α → Path → List Token → Except ArgumentFlaw (α × List Token)) : Prop where
  sound : ∀ {start value : α} {tokens behind rest : List Token} {path : Path},
    readArgumentPath tokens = .ok (path, behind) → step start path behind = .ok (value, rest) →
      ∃ b written, tokens = written ++ rest ∧ IsWrittenAs b written ∧ value = add start b
  complete : ∀ (start : α) {b : β} {written rest : List Token}, IsWrittenAs b written →
    FollowsArgument rest → ∃ path behind,
      readArgumentPath (written ++ rest) = .ok (path, behind) ∧
      step start path behind = .ok (add start b, rest)

section Each

variable {α β : Type} {IsWrittenAs : β → List Token → Prop} {add : α → β → α}
  {step : α → Path → List Token → Except ArgumentFlaw (α × List Token)}

/-- Nothing is read off no tokens. -/
theorem readEach_zero (start : α) : readEach step 0 start [] = .error .missing := by
  delta readEach
  rfl

/-- One value is read, and more of them if something stands behind the comma that follows. -/
theorem readEach_succ (limit : Nat) (start : α) (tokens : List Token) :
    readEach step (limit + 1) start tokens =
      (readArgumentPath tokens).bind fun (path, behind) =>
        (step start path behind).bind fun (value, rest) =>
          match rest with
          | [] => .ok value
          | [.mark ',' _] => .ok value
          | .mark ',' _ :: next => readEach step limit value next
          | _ => .error .noComma := by
  delta readEach
  change (readArgumentPath tokens).bind _ = _
  cases readArgumentPath tokens with
  | error => rfl
  | ok found =>
    dsimp only [Except.bind]
    change (step start found.1 found.2).bind _ = _
    cases step start found.1 found.2 with
    | error => rfl
    | ok result =>
      obtain ⟨value, rest⟩ := result
      dsimp only [Except.bind]
      split
      · rfl
      · rfl
      · next joint next hne =>
        cases next with
        | nil => exact (hne rfl).elim
        | cons => rfl
      · next h1 h2 h3 =>
        rcases rest with _ | ⟨token, next⟩
        · exact (h1 rfl).elim
        · cases token with
          | mark c joint =>
            have hc : c ≠ ',' := by
              rintro rfl
              exact h3 _ _ rfl
            simp only [List.cons.injEq, Token.mark.injEq, hc, false_and, imp_self, implies_true]
            rfl
          | _ => rfl

/-- Values are written with at least one token. -/
theorem ReadsValues.ne_nil (hstep : ReadsValues IsWrittenAs add step) (start : α) {values : List β}
    {tokens : List Token} (h : InCommas IsWrittenAs values tokens) : tokens ≠ [] := by
  cases h with
  | last h =>
    rintro rfl
    obtain ⟨path, behind, hpath, -⟩ := hstep.complete start h (.inl rfl)
    cases hpath
  | comma => simp
  | more => simp

/-- Arguments are read one by one, exactly when they are written with commas between them. -/
theorem readEach_eq_ok (hstep : ReadsValues IsWrittenAs add step) {limit : Nat} {start value : α}
    {tokens : List Token} (hlimit : tokens.length ≤ limit) :
    readEach step limit start tokens = .ok value ↔
      ∃ values, InCommas IsWrittenAs values tokens ∧ value = values.foldl add start := by
  induction limit generalizing start value tokens with
  | zero =>
    obtain rfl := List.eq_nil_of_length_eq_zero (Nat.le_zero.mp hlimit)
    rw [readEach_zero]
    constructor
    · intro h
      cases h
    · rintro ⟨values, hvalues, -⟩
      exact (hstep.ne_nil start hvalues rfl).elim
  | succ limit ih =>
    rw [readEach_succ]
    constructor
    · intro h
      obtain ⟨⟨path, behind⟩, hpath, h⟩ := except_bind_eq_ok.mp h
      obtain ⟨⟨found, rest⟩, hfound, h⟩ := except_bind_eq_ok.mp h
      obtain ⟨b, written, rfl, hb, rfl⟩ := hstep.sound hpath hfound
      dsimp only at h
      split at h
      · cases h
        rw [List.append_nil]
        exact ⟨[b], .last hb, rfl⟩
      · cases h
        exact ⟨[b], .comma hb _, rfl⟩
      · next joint next _ _ =>
        simp only [List.length_append, List.length_cons] at hlimit
        obtain ⟨values, hvalues, rfl⟩ := (ih (by omega)).mp h
        exact ⟨b :: values, .more hb joint hvalues, rfl⟩
      · cases h
    · rintro ⟨values, hvalues, rfl⟩
      cases hvalues with
      | @last b written hb =>
        obtain ⟨path, behind, hpath, hfound⟩ := hstep.complete start hb (.inl rfl)
        rw [List.append_nil] at hpath
        rw [hpath]
        change (step start path behind).bind _ = _
        rw [hfound]
        rfl
      | @comma b written hb joint =>
        obtain ⟨path, behind, hpath, hfound⟩ := hstep.complete start hb (.inr ⟨joint, [], rfl⟩)
        rw [hpath]
        change (step start path behind).bind _ = _
        rw [hfound]
        rfl
      | @more b values written rest hb joint hrest =>
        obtain ⟨path, behind, hpath, hfound⟩ := hstep.complete start hb (.inr ⟨joint, rest, rfl⟩)
        simp only [List.length_append, List.length_cons] at hlimit
        have hmore : readEach step limit (add start b) rest =
            .ok (values.foldl add (add start b)) :=
          (ih (by omega)).mpr ⟨values, hrest, rfl⟩
        rw [hpath]
        change (step start path behind).bind _ = _
        rw [hfound]
        cases rest with
        | nil => exact (hstep.ne_nil start hrest rfl).elim
        | cons => exact hmore

end Each

/-! ### Arguments of the attribute -/

open Reader (dropMarks?)

variable {tokens behind rest : List Token} {name : String}

/-- Without double colons behind it, a name is not followed by further ones. -/
theorem readFurtherNames_of_none (limit : Nat) (h : dropMarks? [':', ':'] tokens = none) :
    readFurtherNames limit tokens = .ok ([], tokens) := by
  cases limit with
  | zero => rfl
  | succ limit =>
    rw [readFurtherNames, h]
    rfl

/-- No further names are read where no double colons stand. -/
theorem dropMarks?_eq_none_of_readFurtherNames
    (h : readFurtherNames tokens.length tokens = .ok ([], rest)) :
    rest = tokens ∧ dropMarks? [':', ':'] tokens = none := by
  cases tokens with
  | nil =>
    cases h
    exact ⟨rfl, rfl⟩
  | cons token tokens =>
    rw [List.length_cons, readFurtherNames] at h
    split at h
    · next hnone =>
      cases h
      exact ⟨rfl, hnone⟩
    · obtain ⟨⟨more, last⟩, -, heq⟩ := except_bind_eq_ok.mp h
      cases heq
    · cases h

/-- Only a path that is not rooted and has one name is a single name. -/
theorem name?_ofNames {rooted : Bool} {first : String} {more : List String} :
    (Path.ofNames rooted (first :: more)).name? = some name ↔
      rooted = false ∧ first = name ∧ more = [] := by
  cases rooted with
  | true => simp [Path.ofNames, Path.name?]
  | false => cases more <;> simp [Path.ofNames, Path.name?]

/-- An argument that is named by a single name has its name in front. -/
theorem readArgumentPath_name :
    (∃ path, readArgumentPath tokens = .ok (path, behind) ∧ path.name? = some name) ↔
      tokens = .name name :: behind ∧ dropMarks? [':', ':'] behind = none := by
  constructor
  · rintro ⟨path, hpath, hname⟩
    unfold readArgumentPath at hpath
    split at hpath
    next rooted start hstart =>
    split at hpath
    · next first rest =>
      obtain ⟨⟨more, last⟩, hmore, heq⟩ := except_bind_eq_ok.mp hpath
      cases heq
      obtain ⟨rfl, rfl, rfl⟩ := name?_ofNames.mp hname
      obtain ⟨rfl, hnone⟩ := dropMarks?_eq_none_of_readFurtherNames hmore
      split at hstart
      · cases hstart
      · cases hstart
        exact ⟨rfl, hnone⟩
    · cases hpath
    · split at hpath <;> cases hpath
  · rintro ⟨rfl, hnone⟩
    refine ⟨.ofNames false [name], ?_, rfl⟩
    change (readFurtherNames behind.length behind >>= _) = _
    rw [readFurtherNames_of_none _ hnone]
    rfl

/-- No double colons stand where an argument can end. -/
theorem FollowsArgument.dropMarks? (h : FollowsArgument rest) :
    dropMarks? [':', ':'] rest = none := by
  rcases h with rfl | ⟨joint, more, rfl⟩
  · rfl
  · cases joint <;> rfl

/-! ### Components and wrappers -/

/-- A component is given by a literal behind an equals sign. -/
theorem readComponentPath_eq_ok {path : Path} :
    readComponentPath tokens = .ok (path, rest) ↔
      ∃ joint literal, tokens = .mark '=' joint :: .literal literal :: rest ∧
        LiteralIsPath literal path := by
  constructor
  · intro h
    unfold readComponentPath at h
    split at h
    · next joint literal behind =>
      split at h
      · cases h
      · next value suffix hvalue =>
        split at h
        · cases h
        · next tokens htokens =>
          split at h
          · cases h
          · next found hfound =>
            split at h
            · next hsuffix =>
              cases h
              rw [List.isEmpty_iff.mp hsuffix] at hvalue
              exact ⟨joint, literal, rfl, value, tokens, hvalue, htokens, hfound⟩
            · cases h
    · cases h
    · cases h
  · rintro ⟨joint, literal, rfl, value, tokens, hvalue, htokens, hpath⟩
    simp [readComponentPath, hvalue, htokens, hpath, pure, Except.pure]

/-- Names are read one by one. -/
theorem readsValues_names :
    ReadsValues (fun name tokens => tokens = [.name name]) (fun names name => names ++ [name])
      fun (names : List String) path behind =>
        match path.name? with
        | some name => .ok (names ++ [name], behind)
        | none => .error .notSimple where
  sound {start value tokens behind rest path} hpath h := by
    split at h
    · next name hname =>
      cases h
      obtain ⟨rfl, -⟩ := readArgumentPath_name.mp ⟨path, hpath, hname⟩
      exact ⟨name, _, rfl, rfl, rfl⟩
    · cases h
  complete start {name written rest} h hrest := by
    subst h
    obtain ⟨path, hpath, hname⟩ := readArgumentPath_name.mpr ⟨rfl, hrest.dropMarks?⟩
    exact ⟨path, rest, hpath, by rw [hname]⟩

/-- Wrappers are listed in round brackets. -/
theorem readWrappers_eq_ok {names : List String} :
    readWrappers tokens = .ok (names, rest) ↔
      ∃ content, tokens = .group .round content :: rest ∧
        InCommas (fun name tokens => tokens = [.name name]) names content := by
  have hcollect (names : List String) :
      names.foldl (fun names name => names ++ [name]) [] = names := by
    simp [← List.flatMap_def]
  constructor
  · intro h
    unfold readWrappers at h
    split at h
    · next content behind =>
      obtain ⟨found, hfound, heq⟩ := except_bind_eq_ok.mp h
      cases heq
      obtain ⟨values, hvalues, rfl⟩ := (readEach_eq_ok readsValues_names (Nat.le_refl _)).mp hfound
      rw [hcollect]
      exact ⟨content, rfl, hvalues⟩
    · cases h
  · rintro ⟨content, rfl, hnames⟩
    exact except_bind_eq_ok.mpr ⟨names, (readEach_eq_ok readsValues_names (Nat.le_refl _)).mpr
      ⟨names, hnames, (hcollect names).symm⟩, rfl⟩

namespace InjectorArguments

/-- What the attribute says with one more argument. -/
def add (self : InjectorArguments) : InjectorArgument → InjectorArguments
  | .component path => { self with component := some path }
  | .wrappers names => { self with wrappers := self.wrappers ++ names }

/-- The last component counts, and the lists of wrappers add up. -/
theorem foldl_add (self : InjectorArguments) (arguments : List InjectorArgument) :
    arguments.foldl add self =
      ⟨(arguments.filterMap (·.path?)).getLast?.or self.component,
        self.wrappers ++ arguments.flatMap (·.names)⟩ := by
  induction arguments generalizing self with
  | nil => simp
  | cons argument arguments ih =>
    rw [List.foldl_cons, ih]
    cases argument with
    | component path =>
      simp [add, InjectorArgument.path?, InjectorArgument.names, List.getLast?_cons]
    | wrappers names => simp [add, InjectorArgument.path?, InjectorArgument.names]

end InjectorArguments

/-- Arguments of the attribute are read one by one. -/
theorem readsValues_readArgument :
    ReadsValues InjectorArgument.IsWrittenAs InjectorArguments.add readArgument where
  sound {start value tokens behind rest path} hpath h := by
    unfold readArgument at h
    split at h
    · next hname =>
      obtain ⟨⟨component, last⟩, hcomponent, heq⟩ := except_bind_eq_ok.mp h
      cases heq
      obtain ⟨rfl, -⟩ := readArgumentPath_name.mp ⟨path, hpath, hname⟩
      obtain ⟨joint, literal, rfl, hliteral⟩ := readComponentPath_eq_ok.mp hcomponent
      exact ⟨.component component, _, rfl, .component hliteral joint, rfl⟩
    · next hname =>
      obtain ⟨⟨names, last⟩, hnames, heq⟩ := except_bind_eq_ok.mp h
      cases heq
      obtain ⟨rfl, -⟩ := readArgumentPath_name.mp ⟨path, hpath, hname⟩
      obtain ⟨content, rfl, hcontent⟩ := readWrappers_eq_ok.mp hnames
      exact ⟨.wrappers names, _, rfl, .wrappers hcontent, rfl⟩
    · cases h
  complete start {argument written rest} h hrest := by
    have hnamed {name : String} {behind : List Token} (h : dropMarks? [':', ':'] behind = none) :
        ∃ path, readArgumentPath (.name name :: behind) = .ok (path, behind) ∧
          path.name? = some name :=
      readArgumentPath_name.mpr ⟨rfl, h⟩
    cases h with
    | @component literal path h joint =>
      have hequals :
          dropMarks? [':', ':'] (.mark '=' joint :: .literal literal :: rest) = none := by
        cases joint <;> rfl
      obtain ⟨found, hpath, hname⟩ := hnamed hequals
      refine ⟨found, _, hpath, ?_⟩
      rw [readArgument, hname]
      exact except_bind_eq_ok.mpr
        ⟨_, readComponentPath_eq_ok.mpr ⟨joint, literal, rfl, h⟩, rfl⟩
    | @wrappers names content h =>
      have hgroup : dropMarks? [':', ':'] (.group .round content :: rest) = none := rfl
      obtain ⟨found, hpath, hname⟩ := hnamed hgroup
      refine ⟨found, _, hpath, ?_⟩
      rw [readArgument, hname]
      exact except_bind_eq_ok.mpr ⟨_, readWrappers_eq_ok.mpr ⟨content, rfl, h⟩, rfl⟩

/-- An attribute says what its arguments give and list. -/
theorem ofAttribute_eq_ok {arguments : AttributeArguments} {path : Path} {wrappers : List String} :
    InjectorArguments.ofAttribute arguments = .ok ⟨some path, wrappers⟩ ↔
      ∃ content values, arguments = .list content ∧
        InCommas InjectorArgument.IsWrittenAs values content ∧
        (values.filterMap (·.path?)).getLast? = some path ∧
        wrappers = values.flatMap (·.names) := by
  constructor
  · intro h
    unfold InjectorArguments.ofAttribute at h
    split at h
    · cases h
    · cases h
    · cases h
    · next content _ =>
      obtain ⟨values, hvalues, hsaid⟩ :=
        (readEach_eq_ok readsValues_readArgument (Nat.le_refl _)).mp h
      rw [InjectorArguments.foldl_add] at hsaid
      simp only [InjectorArguments.mk.injEq, Option.or_none, List.nil_append] at hsaid
      exact ⟨content, values, rfl, hvalues, hsaid.1.symm, hsaid.2⟩
  · rintro ⟨content, values, rfl, hvalues, hpath, rfl⟩
    have hne := readsValues_readArgument.ne_nil ⟨none, []⟩ hvalues
    obtain ⟨token, rest, rfl⟩ := List.exists_cons_of_ne_nil hne
    rw [InjectorArguments.ofAttribute, readEach_eq_ok readsValues_readArgument (Nat.le_refl _)]
    · exact ⟨values, hvalues, by simp [InjectorArguments.foldl_add, hpath]⟩
    · exact hne

/-- The first attribute with the name. -/
theorem find?_isNamed_eq_some {attributes : List Attribute} {found : Attribute} :
    attributes.find? (·.isNamed name) = some found ↔
      ∃ before after, attributes = before ++ found :: after ∧
        (∀ earlier ∈ before, earlier.path.name? ≠ some name) ∧ found.path.name? = some name := by
  rw [List.find?_eq_some_iff_append]
  simp only [Attribute.isNamed, beq_iff_eq, Bool.not_eq_true', beq_eq_false_iff_ne]
  constructor
  · rintro ⟨hname, before, after, hsplit, hbefore⟩
    exact ⟨before, after, hsplit, hbefore, hname⟩
  · rintro ⟨before, after, hsplit, hbefore, hname⟩
    exact ⟨hname, before, after, hsplit, hbefore⟩

/-- Attributes describe what the first one for components says, if it gives a component. -/
theorem argumentsOf_eq_ok_iff_exists {attributes : List Attribute} {path : Path}
    {wrappers : List String} : argumentsOf attributes = .ok (path, wrappers) ↔
      ∃ found, attributes.find? (·.isNamed injectorAttribute) = some found ∧
        InjectorArguments.ofAttribute found.arguments = .ok ⟨some path, wrappers⟩ := by
  rw [argumentsOf]
  cases attributes.find? (·.isNamed injectorAttribute) with
  | none =>
    constructor
    · intro h
      cases h
    · rintro ⟨found, hfound, -⟩
      cases hfound
  | some found =>
    constructor
    · intro h
      refine ⟨found, rfl, ?_⟩
      dsimp only at h
      split at h
      · cases h
      · cases h
      · next said =>
        cases h
        exact said
    · rintro ⟨other, hother, hsaid⟩
      cases hother
      dsimp only
      rw [hsaid]
      rfl

/-- The attributes of a definition describe a component exactly when they have the supported
form. -/
theorem argumentsOf_eq_ok {item : Item} {path : Path} {wrappers : List String} :
    argumentsOf item.attributes = .ok (path, wrappers) ↔ item.DescribesComponent path wrappers := by
  simp only [argumentsOf_eq_ok_iff_exists, injectorAttribute, find?_isNamed_eq_some,
    ofAttribute_eq_ok, Item.DescribesComponent]
  constructor
  · rintro ⟨found, ⟨before, after, hsplit, hbefore, hname⟩, content, values, hlist, hform⟩
    exact ⟨before, found, after, content, values, hsplit, hbefore, hname, hlist, hform⟩
  · rintro ⟨before, found, after, content, values, hsplit, hbefore, hname, hlist, hform⟩
    exact ⟨found, ⟨before, after, hsplit, hbefore, hname⟩, content, values, hlist, hform⟩

end PreferenceInjector.Derive
