import PreferenceInjector.Derive.Reader
import PreferenceInjector.Text.Pieces

/-!
# The grammar of types and expressions

The rules of what a type definition holds besides names and brackets: paths, types, bounds, and
the expressions of array lengths and discriminants. A derived injector does not look into these
parts, so each rule is a phrase. The rules refer to each other through a function that reads a
rule, and reading is bounded by the number of tokens, because no rule comes back to itself before
it has read a token.
-/

namespace PreferenceInjector.Derive

open Phrase

/-- The rules that refer to each other. -/
inductive Rule where
  /-- A type, possibly a sum of bounds. -/
  | type
  /-- A type that is no sum, as behind `&` or `->`. -/
  | operandType
  /-- Arguments in angle brackets. -/
  | arguments
  /-- An expression, which may be a structure literal or not. -/
  | expression (literals : Bool)
  /-- An expression that starts with `if`. -/
  | conditional
  /-- A pattern without alternatives. -/
  | pattern
  /-- Statements in curly brackets. -/
  | block

/-- An element of a list in angle brackets. -/
structure Listed where
  /-- Whether the element is a lifetime. -/
  lifetime : Bool
  /-- The element itself. -/
  tokens : List Token
  /-- Whether a comma follows the element. -/
  comma : Bool

/-- An element with its comma. -/
def Listed.written (element : Listed) : List Token :=
  element.tokens ++ if element.comma then operator "," else []

/-- The elements of a list, lifetimes before all others, with a comma between the two parts. -/
def lifetimesFirst (elements : List Listed) : List Token :=
  let lifetimes := elements.filter (·.lifetime)
  let others := elements.filter (! ·.lifetime)
  lifetimes.flatMap (·.written) ++
    (if others.isEmpty || lifetimes.all (·.comma) then [] else operator ",") ++
    others.flatMap (·.written)

/-- An exclamation mark that is not part of an inequality. -/
def exclamation : Phrase := all [absent (mark "!="), mark "!"]

/-- An equals sign that is not part of a longer operator. -/
def equals : Phrase := all [absent (mark "=="), absent (mark "=>"), mark "="]

/-- The words that stand for a segment of a path and have no arguments. -/
def pathWord : Phrase := first [word "super", word "self", word "crate", word "try"]

/-- The name of a segment that may have arguments. -/
def segmentName : Phrase := first [word "Self", identifier]

/-- A path whose segments have no arguments and are no other keywords than those of modules. -/
def modulePath : Phrase :=
  let segment :=
    first [word "super", word "self", word "crate", word "Self", identifier]
  all [maybe (mark "::"), separated "::" segment]

/-- A literal, also `true` and `false`. -/
def constant : Phrase := first [literal, negativeNumber, word "true", word "false"]

/-- The sign of arguments in angle brackets behind a type name. -/
def opensArguments : Phrase :=
  first [all [absent (mark "<="), absent (mark "<<="), mark "<"], all [mark "::", mark "<"]]

/-- The sign of arguments in round brackets. -/
def opensCall : Phrase := all [maybe (mark "::"), groupIn .round]

section Types

variable (rule : Rule → Phrase)

/-- What a function type returns. -/
def returned : Phrase := maybe (all [mark "->", rule .operandType])

/-- Arguments in round brackets, as of `Fn`, with what is returned. -/
def callArguments : Phrase :=
  all [unwritten (maybe (mark "::")), group .round (commas (rule .type)), returned rule]

/-- The arguments of a segment of a type path, which may be missing. -/
def segmentArguments : Phrase :=
  after opensArguments (rule .arguments) (after opensCall (callArguments rule))

/-- A segment of a type path. -/
def segment : Phrase := first [pathWord, all [segmentName, segmentArguments rule]]

/-- The path of a type or a trait. -/
def typePath : Phrase := all [maybe (mark "::"), separated "::" (segment rule)]

/-- The value of an attribute behind an equals sign, which has no attributes of its own. -/
def attributeValue : Phrase :=
  all [equals, absent (all [mark "#", groupIn .square]), rule (.expression true)]

/-- An outer attribute. -/
def outerAttribute : Phrase :=
  all [mark "#", group .square
    (all [first [word "unsafe", modulePath], maybe (first [anyGroup, attributeValue rule])])]

/-- Attributes. -/
def attributes : Phrase := many (outerAttribute rule)

/-- The lifetimes that a type or a bound binds. -/
def boundLifetimes : Phrase :=
  all [word "for", mark "<",
    commas (all [attributes rule, lifetime, maybe (all [mark ":", sum lifetime])]), mark ">"]

/-- A trait, with the signs that may stand before it. -/
def traitBound : Phrase :=
  all [maybe (all [maybe (mark "~"), word "const"]), maybe (boundLifetimes rule),
    maybe (mark "?"), maybe (boundLifetimes rule), typePath rule]

/-- A trait, possibly in brackets. -/
def anyTrait : Phrase := first [group .round (traitBound rule), traitBound rule]

/-- A bound: a lifetime, a trait or the names that are captured. -/
def bound : Phrase :=
  first [lifetime, anyTrait rule,
    all [word "use", mark "<", commas (first [lifetime, word "Self", identifier]), mark ">"]]

/-- Bounds with a trait among them, as behind `dyn`. -/
def traitBounds : Phrase :=
  all [many (all [lifetime, mark "+"]), anyTrait rule, many (all [mark "+", bound rule]),
    maybe (mark "+")]

/-- Types in round brackets. -/
def bracketed : Phrase :=
  group .round (first [all [present (mark "?"), bound rule], commas (rule .type)])

/-- A type to which bounds can be added. -/
def summand : Phrase :=
  first [bracketed rule, all [boundLifetimes rule, typePath rule],
    all [typePath rule, absent exclamation]]

/-- A parameter of a function type. -/
def functionParameter : Phrase :=
  let named := maybe (all [first [word "_", word "self", identifier], absent (mark "::"), mark ":"])
  all [attributes rule, named, first [mark "...", rule .type]]

/-- A function type. -/
def functionType : Phrase :=
  all [maybe (boundLifetimes rule), maybe (word "unsafe"),
    maybe (all [word "extern", maybe literal]), word "fn",
    group .round (commas (functionParameter rule)), returned rule]

/-- A path that starts with a type in angle brackets. -/
def qualifiedPath (segment : Phrase) : Phrase :=
  all [mark "<", rule .type, maybe (all [word "as", typePath rule]), mark ">", mark "::",
    separated "::" segment]

/-- A macro call. -/
def macroCall : Phrase := all [modulePath, exclamation, anyGroup]

/-- A type that neither is a sum nor can be the first part of one. -/
def closedType : Phrase :=
  first [functionType rule, qualifiedPath rule (segment rule), macroCall,
    group .square (all [rule .type, maybe (all [mark ";", rule (.expression true)])]),
    all [mark "*", first [word "const", word "mut"], rule .operandType],
    all [mark "&", maybe lifetime, maybe (word "mut"), rule .operandType],
    exclamation, word "_"]

/-- A type that is no sum. -/
def operandType : Phrase :=
  first [all [word "dyn", maybe (mark "*"), anyTrait rule], all [word "impl", anyTrait rule],
    summand rule, closedType rule]

/-- A type. -/
def type : Phrase :=
  first [all [word "dyn", maybe (mark "*"), traitBounds rule],
    all [word "impl", traitBounds rule],
    all [present lifetime, traitBounds rule],
    all [summand rule, after (mark "+") (all [many (all [mark "+", bound rule]),
      maybe (mark "+")])],
    closedType rule]

/-- An argument in angle brackets: a lifetime, a constant, a type, or an associated type or
constant with its value or its bounds. -/
def argument : Phrase :=
  first [all [lifetime, absent (mark "+")], constant, rule .block,
    all [rule .type, maybe (first
      [all [equals, first [constant, rule .block, rule .type]],
        all [mark ":", sum (bound rule)]])]]

/-- Arguments in angle brackets. -/
def arguments : Phrase := do
  let opening ← all [maybe (mark "::"), mark "<"]
  let found ← Reader.listed (argument rule) (mark ">")
  let closing ← mark ">"
  return opening ++ lifetimesFirst (found.map fun (tokens, comma) =>
    ⟨tokens.length == 1 && tokens.all Token.isLifetime, tokens, comma⟩) ++ closing

end Types

section Expressions

variable (rule : Rule → Phrase)

/-- A path in an expression, where arguments stand behind `::`. -/
def valuePath : Phrase :=
  let segment := first [pathWord,
    all [segmentName, after (all [mark "::", mark "<"]) (rule .arguments)]]
  first [all [maybe (mark "::"), separated "::" segment], qualifiedPath rule segment]

/-- The fields of a structure literal or of a structure pattern, with what may stand behind the
name of a field and behind two dots. -/
def namedValues (value rest : Phrase) : Phrase :=
  group .curly (commas (all [attributes rule, first
    [all [mark "..", rest], all [first [identifier, literal], value],
      all [maybe (word "box"), maybe (word "ref"), maybe (word "mut"), identifier]]]))

/-- A pattern, possibly with alternatives. -/
def alternatives : Phrase :=
  all [maybe (mark "|"), separated "|" (all [absent (mark "|"), rule .pattern])]

/-- The operators between two patterns or expressions that are the ends of a range. -/
def rangeMark : Phrase := first [mark "..=", mark "...", mark ".."]

/-- A pattern without alternatives. -/
def pattern : Phrase :=
  let ending := first [constant, valuePath rule]
  first [word "_", all [constant, maybe (all [rangeMark, maybe ending])],
    all [rangeMark, maybe ending],
    all [maybe (word "ref"), maybe (word "mut"), identifier, mark "@", rule .pattern],
    all [first [all [word "ref", maybe (word "mut")], word "mut"], identifier],
    all [word "box", rule .pattern],
    all [word "const", rule .block],
    all [mark "&", maybe (word "mut"), rule .pattern],
    group .round (commas (alternatives rule)),
    group .square (commas (alternatives rule)),
    macroCall,
    all [valuePath rule, maybe (first
      [group .round (commas (alternatives rule)),
        namedValues rule (all [mark ":", alternatives rule]) empty,
        all [rangeMark, maybe ending]])]]

/-- The logical operators, and the assignments that operate too. -/
def logicalOrAssigning : Phrase :=
  anyMark ["&&", "||", "<<=", ">>=", "+=", "-=", "*=", "/=", "%=", "^=", "&=", "|="]

/-- The operators between operands that bind tighter than comparisons, longer ones first; none is
part of an assignment or of a logical operator. -/
def tightOperator : Phrase :=
  all [absent logicalOrAssigning, anyMark ["<<", ">>", "+", "-", "*", "/", "%", "^", "&", "|"]]

/-- The comparisons, of which there is at most one between two logical operators. -/
def comparison : Phrase :=
  all [absent (anyMark ["<<", ">>"]), anyMark ["==", "!=", "<=", ">=", "<", ">"]]

/-- The logical operators and the assignments. -/
def looseOperator : Phrase := first [logicalOrAssigning, equals]

/-- A closure. -/
def closure (literals : Bool) : Phrase :=
  all [maybe (boundLifetimes rule), maybe (word "const"), maybe (word "static"),
    maybe (word "async"), maybe (word "move"), mark "|",
    commas (all [attributes rule, rule .pattern, maybe (all [mark ":", rule .type])]), mark "|",
    first [all [mark "->", rule .operandType, rule .block], rule (.expression literals)]]

/-- An arm of a `match`, which needs no comma behind a block. -/
def arm : Phrase :=
  all [attributes rule, alternatives rule,
    maybe (all [word "if", rule (.expression true)]), mark "=>",
    first [all [rule .block, absent (first [mark ".", mark "?"]), maybe (mark ",")],
      all [rule (.expression true), first [mark ",", atEnd]]]]

/-- An expression that ends in a block. -/
def blockExpression : Phrase :=
  let condition := rule (.expression false)
  let label := all [lifetime, mark ":"]
  first [rule .block, rule .conditional,
    all [first [all [word "async", maybe (word "move")], word "try", word "unsafe", word "const"],
      rule .block],
    all [word "match", condition, group .curly (many (arm rule))],
    all [maybe label, first
      [all [word "while", condition, rule .block],
        all [word "for", alternatives rule, word "in", condition, rule .block],
        all [word "loop", rule .block]]],
    all [label, rule .block]]

/-- An expression that no operator takes apart. -/
def atom (literals : Bool) : Phrase :=
  let value := rule (.expression literals)
  let any := rule (.expression true)
  first [literal, word "true", word "false", blockExpression rule, closure rule literals,
    macroCall,
    all [valuePath rule, if literals then
      maybe (namedValues rule (maybe (all [mark ":", any])) (maybe any)) else empty],
    group .round (commas any),
    group .square (maybe (all [any, first [all [mark ";", any],
      all [many (all [mark ",", any]), maybe (mark ",")]]])),
    all [word "break", maybe lifetime, maybe value],
    all [word "continue", maybe lifetime],
    all [first [word "return", word "yield"], maybe value],
    all [word "let", alternatives rule, equals, value],
    word "_"]

/-- The numbers of one or two members, which may look like a decimal fraction. -/
def memberNumbers : Phrase
  | .literal text :: rest =>
    let numbers := splitAt '.' text
    if numbers.all (fun number => !number.isEmpty && number.all Char.isDigit) then
      let members := numbers.map fun number => [Token.literal number]
      some ((members.intersperse (operator ".")).flatten, rest)
    else none
  | _ => none

/-- What stands behind an atom: a call, an index, a member or a question mark. -/
def trailer : Phrase :=
  let any := rule (.expression true)
  first [group .round (commas any), group .square any, mark "?",
    all [absent (mark ".."), mark ".", first [memberNumbers, word "await",
      all [identifier, after (all [mark "::", mark "<"]) (rule .arguments)]]]]

/-- An operand: an atom with what stands before and behind it. -/
def operand (literals : Bool) : Phrase :=
  let reference := all [mark "&", first
    [all [word "raw", first [word "const", word "mut"]], maybe (word "mut")]]
  all [attributes rule, many (first [reference, mark "*", exclamation, mark "-"]),
    atom rule literals, many (trailer rule)]

/-- Operands with tight operators and casts between them. -/
def term (literals : Bool) : Phrase :=
  all [operand rule literals, many (first
    [all [tightOperator, operand rule literals], all [word "as", rule .operandType]])]

/-- Terms with comparisons and loose operators between them. -/
def terms (literals : Bool) : Phrase :=
  let compared := all [term rule literals, maybe (all [comparison, term rule literals])]
  all [compared, many (all [looseOperator, compared])]

/-- An expression: terms, possibly as the ends of a range. -/
def expression (literals : Bool) : Phrase :=
  let range := all [first [mark "..=", mark ".."], maybe (terms rule literals)]
  first [range, all [terms rule literals, maybe range]]

/-- An expression that starts with `if`. -/
def conditional : Phrase :=
  all [word "if", rule (.expression false), rule .block,
    maybe (all [word "else", first [rule .conditional, rule .block]])]

/-- A statement: a declaration of variables or an expression, which ends in a semicolon unless it
ends in a block or is the last. -/
def statement : Phrase :=
  first [mark ";",
    all [attributes rule, word "let", alternatives rule, maybe (all [mark ":", rule .type]),
      maybe (all [equals, rule (.expression true), maybe (all [word "else", rule .block])]),
      mark ";"],
    all [attributes rule,
      first [blockExpression rule, all [modulePath, exclamation, groupIn .curly]],
      absent (first [mark ".", mark "?"])],
    all [rule (.expression true), first [mark ";", atEnd]]]

/-- Statements in curly brackets. -/
def block : Phrase := group .curly (many (statement rule))

end Expressions

/-- What a rule stands for, given how the rules that it refers to are read. -/
def Rule.body (rule : Rule → Phrase) : Rule → Phrase
  | .type => Derive.type rule
  | .operandType => Derive.operandType rule
  | .arguments => Derive.arguments rule
  | .expression literals => Derive.expression rule literals
  | .conditional => Derive.conditional rule
  | .pattern => Derive.pattern rule
  | .block => Derive.block rule

/-- The reader of a rule with at most `depth` rules inside each other. -/
def Rule.within : Nat → Rule → Phrase
  | 0, _ => failure
  | depth + 1, rule => rule.body (within depth)

/-- The number of rules. -/
def Rule.number : Nat := 8

/-- The reader of a rule. No rule is inside itself at the same token, so no more rules are inside
each other than there are tokens and rules for each of them. -/
def Rule.read (rule : Rule) : Phrase := fun tokens =>
  rule.within (Rule.number * (countOf tokens + 1)) tokens

end PreferenceInjector.Derive
