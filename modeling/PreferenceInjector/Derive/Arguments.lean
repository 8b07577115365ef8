import PreferenceInjector.Derive.Item.Reader

/-!
# Arguments of the injector attribute

The attribute names the component by a path in a string and lists the wrappers it owns. Arguments
are read one by one and the first flaw counts. A component that is given again replaces the one
before, and lists of wrappers add up.
-/

namespace PreferenceInjector.Derive

/-- Why the arguments of the attribute cannot be read. -/
inductive ArgumentFlaw where
  /-- There are no arguments. -/
  | none
  /-- There is a value in place of arguments. -/
  | value
  /-- An argument is missing. -/
  | missing
  /-- A literal stands in the place of an argument. -/
  | literal
  /-- A token that is no name stands in the place of an argument. -/
  | token
  /-- No name follows double colons. -/
  | noName (ended : Bool)
  /-- The argument is neither of the two. -/
  | unsupported
  /-- The component has no value. -/
  | noEquals
  /-- The value of the component is no string. -/
  | noString (ended : Bool)
  /-- The value of the component is no path. -/
  | component (flaw : PathFlaw)
  /-- The wrappers do not stand in round brackets. -/
  | noBrackets (ended : Bool)
  /-- A wrapper is not given by a single name. -/
  | notSimple
  /-- An argument is followed by something else than a comma. -/
  | noComma
  deriving DecidableEq, Repr

/-- The wording of a flaw. -/
def ArgumentFlaw.message : ArgumentFlaw → String
  | .none => "expected attribute arguments in parentheses: #[injector(...)]"
  | .value => "expected parentheses: #[injector(...)]"
  | .missing => expected true "nested attribute"
  | .literal => "unexpected literal in nested attribute, expected ident"
  | .token => "unexpected token in nested attribute, expected ident"
  | .noName ended => expected ended "ident"
  | .unsupported => "unsupported injector attribute, expected `component` or `wrappers`"
  | .noEquals => expected false "`=`"
  | .noString ended => expected ended "string literal"
  | .component flaw => flaw.message
  | .noBrackets ended => expected ended "parentheses"
  | .notSimple => "expected a wrapper type name"
  | .noComma => expected false "`,`"

/-- What the attribute says. -/
structure InjectorArguments where
  /-- The path of the component, if one is given. -/
  component : Option Path
  /-- The names of the wrappers, in order. -/
  wrappers : List String

/-- Reads the names behind a name, each behind double colons; at most `limit` of them. -/
def readFurtherNames : Nat → List Token → Except ArgumentFlaw (List String × List Token)
  | 0, tokens => pure ([], tokens)
  | limit + 1, tokens =>
    match Reader.dropMarks? [':', ':'] tokens with
    | none => pure ([], tokens)
    | some (.name name :: rest) => do
      let (more, last) ← readFurtherNames limit rest
      pure (name :: more, last)
    | some rest => throw (.noName rest.isEmpty)

/-- Reads the path that names an argument; its names can be keywords. -/
def readArgumentPath (tokens : List Token) : Except ArgumentFlaw (Path × List Token) :=
  let (rooted, start) :=
    match Reader.dropMarks? [':', ':'] tokens with
    | some rest => (true, rest)
    | none => (false, tokens)
  match start with
  | .name name :: rest => do
    let (more, last) ← readFurtherNames rest.length rest
    pure (.ofNames rooted (name :: more), last)
  | [] => throw .missing
  | _ => if (constant start).isSome then throw .literal else throw .token

/-- Reads arguments with commas between them: the path of each and then what `step` makes of it
and the tokens behind it. There are at most `limit + 1` arguments. -/
def readEach {α : Type} (step : α → Path → List Token → Except ArgumentFlaw (α × List Token))
    (limit : Nat) (start : α) (tokens : List Token) : Except ArgumentFlaw α := do
  let (path, behind) ← readArgumentPath tokens
  let (value, rest) ← step start path behind
  match limit, rest with
  | _, [] => pure value
  | _, [.mark ',' _] => pure value
  | limit + 1, .mark ',' _ :: next => readEach step limit value next
  | _, _ => throw .noComma

/-- Reads a string behind an equals sign as the path of a component. -/
def readComponentPath : List Token → Except ArgumentFlaw (Path × List Token)
  | .mark '=' _ :: .literal text :: rest =>
    match stringValue? text with
    | none => throw (.noString false)
    | some (value, suffix) =>
      match tokensOf? value with
      | none => throw (.component .noTokens)
      | some tokens =>
        match pathOf angledArguments tokens with
        | .error flaw => throw (.component flaw)
        | .ok path =>
          if suffix.isEmpty then pure (path, rest)
          else throw (.component (.suffixed (String.ofList suffix)))
  | .mark '=' _ :: rest => throw (.noString rest.isEmpty)
  | _ => throw .noEquals

/-- Reads names of wrappers in round brackets. -/
def readWrappers : List Token → Except ArgumentFlaw (List String × List Token)
  | .group .round content :: rest => do
    let step (names : List String) (path : Path) (behind : List Token) :
        Except ArgumentFlaw (List String × List Token) :=
      match path.name? with
      | some name => pure (names ++ [name], behind)
      | none => throw .notSimple
    return (← readEach step content.length [] content, rest)
  | tokens => throw (.noBrackets tokens.isEmpty)

/-- Reads one argument of the attribute behind its path. -/
def readArgument (found : InjectorArguments) (path : Path) (tokens : List Token) :
    Except ArgumentFlaw (InjectorArguments × List Token) :=
  match path.name? with
  | some "component" => do
    let (component, rest) ← readComponentPath tokens
    pure ({ found with component }, rest)
  | some "wrappers" => do
    let (names, rest) ← readWrappers tokens
    pure ({ found with wrappers := found.wrappers ++ names }, rest)
  | _ => throw .unsupported

/-- What an attribute says; nothing, if its brackets are empty. -/
def InjectorArguments.ofAttribute (arguments : AttributeArguments) :
    Except ArgumentFlaw InjectorArguments :=
  match arguments with
  | .bare => throw .none
  | .value => throw .value
  | .list [] => pure ⟨none, []⟩
  | .list content => readEach readArgument content.length ⟨none, []⟩ content

end PreferenceInjector.Derive
