/-!
# Arguments of the command

The command has two subcommands and options of its own, before the subcommand, or of the
subcommand, after it. Options have a long name and possibly a short one; short ones can be joined.
An option with a value takes it from the same argument or from the next one, which must not look
like an option. Reading stops at the first argument that is wrong or that asks for help.
-/

namespace PreferenceInjector.Command

/-- A page of help. -/
inductive Page where
  | root
  | generate
  | check
  | help
  deriving DecidableEq, Repr

/-- What is wrong with arguments. -/
inductive Misuse where
  /-- There are no arguments. -/
  | nothingGiven
  /-- There are options, but no subcommand. -/
  | subcommandMissing
  /-- Something else stands in the place of the subcommand. -/
  | unknownSubcommand
  /-- An option is unknown at its place, or an argument belongs to no option. -/
  | unknownArgument
  /-- An option lacks its value, or the value is an empty path. -/
  | badValue
  /-- An option is given twice. -/
  | repeated
  /-- An option without a value is given one. -/
  | needlessValue
  deriving DecidableEq, Repr

/-- The name of a misuse. -/
def Misuse.name : Misuse → String
  | nothingGiven => "DisplayHelpOnMissingArgumentOrSubcommand"
  | subcommandMissing => "MissingSubcommand"
  | unknownSubcommand => "InvalidSubcommand"
  | unknownArgument => "UnknownArgument"
  | badValue => "InvalidValue"
  | repeated => "ArgumentConflict"
  | needlessValue => "TooManyValues"

/-- Why arguments do not lead to a run. -/
inductive Interruption where
  /-- A page of help is asked for. -/
  | help (page : Page)
  /-- The version is asked for. -/
  | version
  /-- The arguments are wrong. -/
  | misuse (what : Misuse)
  deriving DecidableEq, Repr

/-- An option that takes a value. -/
inductive Slot where
  | input
  | extension
  | output
  deriving DecidableEq, Repr

/-- An option without a value. -/
inductive Switch where
  | verbose
  | json
  | help
  | version
  deriving DecidableEq, Repr

/-- An option. -/
inductive Choice where
  | slot (slot : Slot)
  | switch (switch : Switch)
  deriving DecidableEq, Repr

/-- The options given to a command. -/
structure Given where
  verbose : Bool := false
  json : Bool := false
  input : Option String := none
  extension : Option String := none
  output : Option String := none
  deriving DecidableEq, Repr

/-- What the command is asked to do. -/
inductive Task where
  /-- Write the injectors. -/
  | generate (input extension output : Option String)
  /-- Show the injectors that would be written. -/
  | check (input extension : Option String) (json : Bool)
  deriving DecidableEq, Repr

/-- A task, and whether all events are to be logged. -/
structure Invocation where
  verbose : Bool
  task : Task
  deriving DecidableEq, Repr

/-- The option that a long name stands for on a page. -/
def long? (page : Page) (name : String) : Option Choice :=
  match page, name with
  | _, "verbose" => some (.switch .verbose)
  | _, "help" => some (.switch .help)
  | .root, "version" => some (.switch .version)
  | .generate, "input" | .check, "input" => some (.slot .input)
  | .generate, "extension" | .check, "extension" => some (.slot .extension)
  | .generate, "output" => some (.slot .output)
  | .check, "json" => some (.switch .json)
  | _, _ => none

/-- The option that a short name stands for on a page. -/
def short? (page : Page) (name : Char) : Option Choice :=
  match page, name with
  | _, 'v' => some (.switch .verbose)
  | _, 'h' => some (.switch .help)
  | .root, 'V' => some (.switch .version)
  | .generate, 'i' | .check, 'i' => some (.slot .input)
  | .generate, 'o' => some (.slot .output)
  | _, _ => none

/-- The failure of a misuse. -/
def misused {α : Type} (what : Misuse) : Except Interruption α := .error (.misuse what)

namespace Given

/-- The options with one switch more. -/
def turnOn (given : Given) (page : Page) : Switch → Except Interruption Given
  | .verbose =>
    if given.verbose then misused .repeated else .ok { given with verbose := true }
  | .json => if given.json then misused .repeated else .ok { given with json := true }
  | .help => .error (.help page)
  | .version => .error .version

/-- The options with one value more; a directory must not be empty. -/
def fill (given : Given) (slot : Slot) (value : String) : Except Interruption Given :=
  match slot with
  | .input =>
    if given.input.isSome then misused .repeated
    else if value.isEmpty then misused .badValue
    else .ok { given with input := some value }
  | .extension =>
    if given.extension.isSome then misused .repeated
    else .ok { given with extension := some value }
  | .output =>
    if given.output.isSome then misused .repeated
    else if value.isEmpty then misused .badValue
    else .ok { given with output := some value }

end Given

/-- The options read so far, and the option that still waits for its value. -/
abbrev Progress := Given × Option Slot

/-- The options, unless one still waits for its value. -/
def settled (progress : Progress) : Except Interruption Given :=
  match progress with
  | (given, none) => .ok given
  | (_, some _) => misused .badValue

/-- The progress after joined short options. What follows the letter of an option with a value is
the value, after an equals sign if there is one. -/
def readShort (page : Page) (progress : Progress) : List Char → Except Interruption Progress
  | [] => .ok progress
  | c :: rest =>
    match short? page c with
    | none => misused .unknownArgument
    | some (.switch switch) => do
      let given ← (← settled progress).turnOn page switch
      readShort page (given, none) rest
    | some (.slot slot) => do
      let given ← settled progress
      match rest with
      | [] => .ok (given, some slot)
      | '=' :: value => return (← given.fill slot (String.ofList value), none)
      | value => return (← given.fill slot (String.ofList value), none)

/-- The progress after a long option, given by its name and the value in the same argument. -/
def readLong (page : Page) (progress : Progress) (name : String) (value : Option String) :
    Except Interruption Progress :=
  match long? page name, value with
  | none, _ => misused .unknownArgument
  | some (.switch _), some _ => misused .needlessValue
  | some (.switch switch), none => do
    return (← (← settled progress).turnOn page switch, none)
  | some (.slot slot), some value => do
    return (← (← settled progress).fill slot value, none)
  | some (.slot slot), none => do
    return (← settled progress, some slot)

/-- An argument by its form. -/
inductive Form where
  /-- The mark after which no options follow. -/
  | endOfOptions
  /-- A long option with the value after its equals sign. -/
  | long (name : String) (value : Option String)
  /-- Joined short options. -/
  | short (letters : List Char)
  /-- Anything else. -/
  | word
  deriving DecidableEq, Repr

/-- The form of an argument. -/
def Form.of (argument : String) : Form :=
  match argument.toList with
  | ['-', '-'] => endOfOptions
  | '-' :: '-' :: rest =>
    let name := rest.takeWhile (· != '=')
    let value := match rest.drop name.length with
      | [] => none
      | _ :: value => some (String.ofList value)
    long (String.ofList name) value
  | '-' :: c :: rest => short (c :: rest)
  | _ => word

/-- The options that the arguments of a subcommand give. -/
def readOptions (page : Page) (progress : Progress) :
    List String → Except Interruption Given
  | [] => settled progress
  | argument :: rest =>
    match Form.of argument with
    | .endOfOptions => if rest.isEmpty then settled progress else misused .unknownArgument
    | .long name value => do readOptions page (← readLong page progress name value) rest
    | .short letters => do readOptions page (← readShort page progress letters) rest
    | .word =>
      match progress with
      | (given, some slot) => do readOptions page (← given.fill slot argument, none) rest
      | (_, none) => misused .unknownArgument

/-- The page of help that the names after `help` ask for. -/
def readHelp : List String → Except Interruption Invocation
  | [] => .error (.help .root)
  | ["generate"] => .error (.help .generate)
  | ["check"] => .error (.help .check)
  | ["help"] => .error (.help .help)
  | _ => misused .unknownSubcommand

/-- What arguments that end before a subcommand lack. -/
def withoutSubcommand (given : Given) : Except Interruption Invocation :=
  misused (if given.verbose then .subcommandMissing else .nothingGiven)

/-- What the arguments ask for, after options of the command itself. -/
def readCommand (given : Given) : List String → Except Interruption Invocation
  | [] => withoutSubcommand given
  | "generate" :: rest => do
    let own ← readOptions .generate ({}, none) rest
    return ⟨given.verbose || own.verbose, .generate own.input own.extension own.output⟩
  | "check" :: rest => do
    let own ← readOptions .check ({}, none) rest
    return ⟨given.verbose || own.verbose, .check own.input own.extension own.json⟩
  | "help" :: rest => readHelp rest
  | argument :: rest =>
    match Form.of argument with
    | .endOfOptions =>
      match rest with
      | [] => withoutSubcommand given
      | name :: _ =>
        misused (if ["generate", "check", "help"].contains name then .unknownArgument
          else .unknownSubcommand)
    | .long name value => do
      readCommand (← readLong .root (given, none) name value).1 rest
    | .short letters => do
      readCommand (← readShort .root (given, none) letters).1 rest
    | .word => misused .unknownSubcommand

/-- What the arguments of the command ask for. -/
def Invocation.ofArguments (arguments : List String) : Except Interruption Invocation :=
  readCommand {} arguments

end PreferenceInjector.Command
