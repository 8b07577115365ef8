import PreferenceInjector.Injector

/-!
# Plans in JSON

A plan as a JSON text that is indented by two blanks a level. Quotes, backslashes and control
characters are escaped; all other characters stand for themselves.
-/

namespace PreferenceInjector.Command

/-- A JSON value of those that a plan needs. -/
inductive Json where
  | null
  | text (value : String)
  | list (items : List Json)
  | object (members : List (String × Json))

/-- A character inside a JSON string. -/
def jsonChar (c : Char) : List Char :=
  if c = '"' then ['\\', '"']
  else if c = '\\' then ['\\', '\\']
  else if c = '\n' then ['\\', 'n']
  else if c = '\r' then ['\\', 'r']
  else if c = '\t' then ['\\', 't']
  else if c = '\x08' then ['\\', 'b']
  else if c = '\x0c' then ['\\', 'f']
  else if c.toNat < 0x20 then
    '\\' :: 'u' :: '0' :: '0' :: Nat.digitChar (c.toNat / 16) :: [Nat.digitChar (c.toNat % 16)]
  else [c]

/-- A text as a JSON string. -/
def jsonString (text : String) : String :=
  String.ofList ('"' :: text.toList.flatMap jsonChar ++ ['"'])

namespace Json

/-- The blanks in front of a line at a level. -/
def indent (level : Nat) : String := String.ofList (List.replicate (2 * level) ' ')

mutual

/-- A value as a text whose lines after the first are indented for a level. -/
def pretty (level : Nat) : Json → String
  | null => "null"
  | text value => jsonString value
  | list [] => "[]"
  | list (item :: rest) =>
    "[\n" ++ indent (level + 1) ++ pretty (level + 1) item ++ prettyItems (level + 1) rest ++
      "\n" ++ indent level ++ "]"
  | object [] => "\x7b\x7d"
  | object ((key, value) :: rest) =>
    "\x7b\n" ++ indent (level + 1) ++ jsonString key ++ ": " ++ pretty (level + 1) value ++
      prettyMembers (level + 1) rest ++ "\n" ++ indent level ++ "\x7d"

/-- The items of a list after the first. -/
def prettyItems (level : Nat) : List Json → String
  | [] => ""
  | item :: rest => ",\n" ++ indent level ++ pretty level item ++ prettyItems level rest

/-- The members of an object after the first. -/
def prettyMembers (level : Nat) : List (String × Json) → String
  | [] => ""
  | (key, value) :: rest =>
    ",\n" ++ indent level ++ jsonString key ++ ": " ++ pretty level value ++
      prettyMembers level rest

end

/-- A type. -/
def ofType (type : TypeRef) : Json :=
  object [("package", text type.package), ("simple", text type.simple)]

/-- An assignment. -/
def ofAssignment (assignment : Assignment) : Json :=
  object [("field", text assignment.field), ("source", object [
    ("singleton", ofType assignment.source.singleton),
    ("accessor", match assignment.source.accessor with
      | some accessor => text accessor
      | none => null)])]

/-- An injector. -/
def ofInjector (injector : Injector) : Json :=
  object [("name", text injector.name), ("package_name", text injector.package),
    ("parameter", ofType injector.parameter), ("component", ofType injector.component),
    ("assignments", list (injector.assignments.map ofAssignment))]

/-- A plan. -/
def ofPlan (injectors : List Injector) : Json :=
  object [("injectors", list (injectors.map ofInjector))]

end Json

end PreferenceInjector.Command
