import PreferenceInjector.Derive.Item
import PreferenceInjector.Derive.Lexer

/-!
# Reading type definitions

A text is a type definition if its tokens are one to the last. Attributes, visibilities, fields
and generic parameters are read where they can stand; types and expressions are left to their
grammar.
-/

namespace PreferenceInjector.Derive

open Phrase

/-- Reads the arguments of an attribute. -/
def readAttributeArguments : Reader AttributeArguments
  | .group _ content :: rest => some (.list content, rest)
  | tokens =>
    ((attributeValue Rule.read *> pure .value) <|> pure .bare : Reader AttributeArguments) tokens

/-- Reads an attribute. -/
def readAttribute : Reader Attribute := do
  discard (mark "#")
  Reader.inside .square do
    let path ← (word "unsafe" *> pure (.ofNames false ["unsafe"])) <|> readModulePath
    let arguments ← readAttributeArguments
    pure ⟨path, arguments⟩

/-- Reads attributes. -/
def readAttributes : Reader (List Attribute) := Reader.many readAttribute

/-- Reads an identifier. -/
def readIdentifier : Reader String
  | .name name :: rest => if isKeyword name then none else some (name, rest)
  | _ => none

/-- A visibility, possibly none. -/
def visible : Phrase :=
  first [all [word "pub", group .round (first
      [first (["crate", "self", "super"].map word), all [word "in", modulePath]])],
    word "pub", empty]

/-- Reads a type. -/
def readType : Reader FieldType := .ofTokens <$> Rule.type.read

/-- Reads a named field. -/
def readNamedField : Reader NamedField := do
  let attributes ← readAttributes
  discard visible
  let name ← (word "_" *> pure "_") <|> readIdentifier
  discard (mark ":")
  let type ← readType
  pure ⟨attributes, name, type⟩

/-- Reads named fields in curly brackets. -/
def readNamedFields : Reader (List NamedField) :=
  Reader.inside .curly (Reader.commaSeparated readNamedField)

/-- Fields without names in round brackets. -/
def positionalFields : Phrase :=
  group .round (commas (all [attributes Rule.read, visible, Rule.type.read]))

/-- Reads a variant of an enumeration. -/
def readVariant : Reader Unit := do
  discard readAttributes
  discard visible
  discard readIdentifier
  discard readNamedFields <|> discard positionalFields <|> pure ()
  discard (maybe (all [mark "=", (Rule.expression true).read]))

/-- Reads a parameter with its attributes. -/
def readParameter : Reader Parameter := do
  let attributes ← attributes Rule.read
  let bounds (bound : Phrase) : Phrase := all [mark ":", sum bound]
  let written (bounds : List Token) : List Token := if bounds.length ≤ 1 then [] else bounds
  let readLifetime : Reader Parameter := do
    let name ← lifetime
    let bounds ← maybe (bounds lifetime)
    return ⟨true, name.headD (.name ""), attributes ++ name ++ written bounds⟩
  let readTypeParameter : Reader Parameter := do
    let name ← readIdentifier
    let bounds ← maybe (bounds (bound Rule.read))
    discard (maybe (all [mark "=", Rule.type.read]))
    return ⟨false, .name name, attributes ++ [.name name] ++ written bounds⟩
  let readConstant : Reader Parameter := do
    discard (word "const")
    let name ← readIdentifier
    let type ← all [mark ":", Rule.type.read]
    discard (maybe (all [mark "=", first [constant, identifier, Rule.block.read]]))
    return ⟨false, .name name, attributes ++ [.name "const", .name name] ++ type⟩
  let readInferred : Reader Parameter := do
    discard (word "_")
    return ⟨false, .name "_", attributes ++ [.name "_"]⟩
  readLifetime <|> readTypeParameter <|> readConstant <|> readInferred

/-- Reads generic parameters in angle brackets, possibly none. -/
def readParameters : Reader Parameters := do
  if ← Reader.sees (mark "<") then
    discard (mark "<")
    let parameters ← Reader.listed readParameter (mark ">")
    discard (mark ">")
    pure parameters
  else pure []

/-- A condition on a lifetime or on a type. -/
def condition : Phrase :=
  first [all [lifetime, mark ":", sum lifetime],
    all [maybe (boundLifetimes Rule.read), Rule.type.read, mark ":", sum (bound Rule.read)]]

/-- Reads the conditions on the parameters with the word before them, possibly none. -/
def readConditions : Reader (List Token) := do
  let conditions ← maybe (all [word "where", commas condition])
  pure (if conditions.length ≤ 1 then [] else conditions)

/-- Reads what stands behind the parameters of a structure; the conditions follow fields in round
brackets and precede those in curly ones. -/
def readStructure : Reader (List Token × Shape) :=
  (do
    discard positionalFields
    let conditions ← readConditions
    discard (mark ";")
    pure (conditions, .unnamed)) <|>
  (do
    let conditions ← readConditions
    let shape ← (.named <$> readNamedFields) <|> (mark ";" *> pure .unnamed)
    pure (conditions, shape))

/-- Reads what stands behind the parameters of an enumeration or a union. -/
def readVariants (content : Reader Unit) : Reader (List Token × Shape) := do
  let conditions ← readConditions
  content
  pure (conditions, .variant)

/-- Reads a type definition. -/
def readItem : Reader Item := do
  let attributes ← readAttributes
  let visibility ← visible
  let ofKind (kind : String) (readBody : Reader (List Token × Shape)) : Reader Item := do
    discard (word kind)
    let name ← readIdentifier
    let parameters ← readParameters
    let (conditions, shape) ← readBody
    pure { attributes, visibility, name, parameters, conditions, shape }
  ofKind "struct" readStructure <|>
    ofKind "enum" (readVariants (discard
      (Reader.inside .curly (Reader.commaSeparated readVariant)))) <|>
    ofKind "union" (readVariants (discard readNamedFields))

/-- The type definition that a text is. -/
def Item.ofText? (text : String) : Option Item :=
  match (tokensOf? text.toList).bind readItem with
  | some (item, []) => some item
  | _ => none

end PreferenceInjector.Derive
