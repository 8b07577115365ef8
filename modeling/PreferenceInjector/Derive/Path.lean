import PreferenceInjector.Derive.Grammar

/-!
# Paths

A path names a type or a module by segments with double colons between them; a segment may have
arguments, which are only passed on. Reading a path explains why there is none, because the path
of a component is given as a text of its own.
-/

namespace PreferenceInjector.Derive

/-- A segment of a path. -/
structure Segment where
  /-- The name, as it is spelled. -/
  name : String
  /-- The arguments with their brackets; empty if there are none. -/
  arguments : List Token
  deriving DecidableEq, Repr

/-- A path. -/
structure Path where
  /-- Whether double colons stand before the first segment. -/
  rooted : Bool
  /-- The segments in order. -/
  segments : List Segment
  deriving DecidableEq, Repr

/-- The tokens of a segment. -/
def Segment.tokens (segment : Segment) : List Token := .name segment.name :: segment.arguments

namespace Path

/-- The tokens of segments with double colons between them. -/
def tokensOfSegments : List Segment → List Token
  | [] => []
  | [segment] => segment.tokens
  | segment :: rest => segment.tokens ++ operator "::" ++ tokensOfSegments rest

/-- The tokens of a path. -/
def tokens (path : Path) : List Token :=
  (if path.rooted then operator "::" else []) ++ tokensOfSegments path.segments

/-- The names of a path. -/
def names (path : Path) : List String := path.segments.map (·.name)

/-- The only name of a path that has one segment without arguments and is not rooted. -/
def name? (path : Path) : Option String :=
  match path with
  | ⟨false, [⟨name, []⟩]⟩ => some name
  | _ => none

/-- A path of names. -/
def ofNames (rooted : Bool) (names : List String) : Path := ⟨rooted, names.map (⟨·, []⟩)⟩

/-- A path with the last name changed. -/
def renamed (path : Path) (change : String → String) : Path where
  rooted := path.rooted
  segments :=
    match path.segments.getLast? with
    | none => []
    | some last => path.segments.dropLast ++ [{ last with name := change last.name }]

end Path

/-- Why there is no path. -/
inductive PathFlaw where
  /-- No name stands where one has to; `ended` tells whether nothing stands there. -/
  | noName (ended : Bool)
  /-- A keyword stands where a name has to. -/
  | keyword (word : String)
  /-- No argument stands where one has to. -/
  | noArgument (ended : Bool)
  /-- Neither a comma nor a closing bracket follows an argument. -/
  | noComma
  /-- Something follows the path. -/
  | leftover
  /-- The text does not consist of tokens. -/
  | noTokens
  /-- The literal with the text has a suffix. -/
  | suffixed (suffix : String)
  deriving DecidableEq, Repr

/-- What was expected, said of the end of the input or of something else. -/
def expected (ended : Bool) (what : String) : String :=
  (if ended then "unexpected end of input, " else "") ++ "expected " ++ what

/-- What a type can start with. -/
def typeStarts : String :=
  "one of: `for`, parentheses, `fn`, `unsafe`, `extern`, identifier, `::`, `<`, `dyn`, " ++
    "square brackets, `*`, `&`, `!`, `impl`, `_`, lifetime"

/-- The wording of a flaw. -/
def PathFlaw.message : PathFlaw → String
  | .noName ended => expected ended "identifier"
  | .keyword word => expected false s!"identifier, found keyword `{word}`"
  | .noArgument ended => expected ended typeStarts
  | .noComma => expected false "`,`"
  | .leftover => "unexpected token"
  | .noTokens => "cannot parse string into token stream"
  | .suffixed suffix => s!"unexpected suffix `{suffix}` on string literal"

/-- Reads the arguments of a segment, possibly none. -/
abbrev ArgumentReader := List Token → Except PathFlaw (List Token × List Token)

/-- Why the arguments at the front of a sequence of tokens cannot be read. -/
def argumentFlaw (tokens : List Token) : PathFlaw :=
  let argument := argument Rule.read
  let opened := (Phrase.all [Phrase.maybe (Phrase.mark "::"), Phrase.mark "<"]) tokens
  match opened.bind fun (_, rest) => Reader.listed argument (Phrase.mark ">") rest with
  | none => .noArgument tokens.isEmpty
  | some (_, rest) => if (argument rest).isSome then .noComma else .noArgument rest.isEmpty

/-- The arguments in angle brackets. -/
def angledArguments : ArgumentReader := fun tokens =>
  if (opensArguments tokens).isSome then
    match Rule.arguments.read tokens with
    | some found => .ok found
    | none => .error (argumentFlaw tokens)
  else .ok ([], tokens)

/-- The arguments in angle or in round brackets. -/
def allArguments : ArgumentReader := fun tokens =>
  match segmentArguments Rule.read tokens with
  | some found => .ok found
  | none => .error (argumentFlaw tokens)

/-- Reads a segment. -/
def readSegment (arguments : ArgumentReader) :
    List Token → Except PathFlaw (Segment × List Token)
  | [] => .error (.noName true)
  | .name name :: rest =>
    if ["super", "self", "crate", "try"].contains name then .ok (⟨name, []⟩, rest)
    else if name != "Self" && isKeyword name then .error (.keyword name)
    else (arguments rest).map fun (found, last) => (⟨name, found⟩, last)
  | _ => .error (.noName false)

/-- What follows the double colons behind a segment, unless they belong to round brackets. -/
def nextSegment? (tokens : List Token) : Option (List Token) :=
  match Reader.dropMarks? [':', ':'] tokens with
  | some (.group .round _ :: _) => none
  | next => next

/-- Reads at most `limit + 1` segments, up to one that no further segment follows. -/
def readSegments (arguments : ArgumentReader) (limit : Nat) (tokens : List Token) :
    Except PathFlaw (List Segment × List Token) := do
  let (segment, rest) ← readSegment arguments tokens
  match limit, nextSegment? rest with
  | limit + 1, some next =>
    let (more, last) ← readSegments arguments limit next
    pure (segment :: more, last)
  | _, _ => pure ([segment], rest)

/-- Reads a path. -/
def readPath (arguments : ArgumentReader) (tokens : List Token) :
    Except PathFlaw (Path × List Token) :=
  let (rooted, start) :=
    match Reader.dropMarks? [':', ':'] tokens with
    | some rest => (true, rest)
    | none => (false, tokens)
  (readSegments arguments tokens.length start).map fun (segments, rest) =>
    (⟨rooted, segments⟩, rest)

/-- The path that a whole sequence of tokens is. -/
def pathOf (arguments : ArgumentReader) (tokens : List Token) : Except PathFlaw Path := do
  let (path, rest) ← readPath arguments tokens
  if rest.isEmpty then pure path else throw .leftover

/-- A path whose segments are names of modules and types without arguments. -/
def readModulePath : Reader Path := do
  let name : Reader String
    | .name name :: rest =>
      if ["super", "self", "crate", "Self"].contains name || !isKeyword name then some (name, rest)
      else none
    | _ => none
  let rooted ← (Reader.mark "::" *> pure true) <|> pure false
  let first ← name
  let more ← Reader.many (Reader.mark "::" *> name)
  return .ofNames rooted (first :: more)

end PreferenceInjector.Derive
