import PreferenceInjector.FileTree.Basic
import PreferenceInjector.Settings.Basic
import PreferenceInjector.Settings.Environment
import PreferenceInjector.Settings.Toml.Document

/-!
# Loading settings

Settings come in layers: the defaults, the user's file, the project's file and the environment,
each over the ones before it. A relative path of a file is looked up in the working directory and
then in each directory above it; what is not a file is passed over, and a file that is nowhere is
an empty layer. A file that cannot be read as a document ends the loading, whatever the other
layers hold.
-/

namespace PreferenceInjector.Settings

/-- What a pass knows of its surroundings besides the files. -/
structure Surroundings where
  /-- The user's home directory. -/
  home : String
  /-- The directory for the user's settings, if one is set. -/
  settingsHome : Option String
  /-- The environment variables. -/
  environment : List (String × String)
  deriving DecidableEq, Repr

/-- The project's settings file. -/
def projectFile : String := "prefgen.toml"

/-- The user's settings file below the directory for settings. -/
def userFile : String := "prefgen/config.toml"

/-- The directories from a place up to the root. -/
def upwards (place : Place) : List Place :=
  (List.range (place.length + 1)).reverse.map (place.take ·)

/-- The place from which the path of a settings file leads to a file. -/
def findFile? (tree : FileTree) (path : String) : Option Place :=
  if path.toList.head? == some '/' then if tree.isFile path then some [] else none
  else (upwards tree.cwd).find? fun place => { tree with cwd := place }.isFile path

/-- The path of a settings file as it is shown, from the working directory. -/
def shownPath (tree : FileTree) (place : Place) (path : String) : String :=
  "/".intercalate
    (relativeSegments tree.cwd (place ++ (pathSegments path).filter (· != ".")))

/-- The layer that a file holds. -/
def fileLayer (tree : FileTree) (path : String) :
    Except SettingsError (List (String × Setting)) :=
  match findFile? tree path with
  | none => .ok []
  | some place =>
    match { tree with cwd := place }.readText path with
    | .error _ => .error .unreadable
    | .ok text =>
      match Toml.read? text with
      | none => .error .unreadable
      | some entries => .ok (Value.entriesFrom (.file (shownPath tree place path)) entries)

/-- The settings of a user's file, a project's file and the environment, over the defaults. -/
def loadFrom (tree : FileTree) (environment : List (String × String)) (user project : String) :
    Except SettingsError Settings := do
  let user ← fileLayer tree user
  let project ← fileLayer tree project
  let files := Setting.overEntries project (Setting.overEntries user defaultLayer)
  ofEntries (Setting.overEntries (Environment.read environment) files)

/-- The path of the user's settings file: below the home directory if something is there,
otherwise in the directory for settings, which must be an absolute path to count. -/
def userPath (tree : FileTree) (surroundings : Surroundings) : String :=
  let homeFile := joinPath (joinPath surroundings.home ".config") userFile
  if tree.pathExists homeFile then homeFile
  else
    match surroundings.settingsHome with
    | some dir => if dir.toList.head? == some '/' then joinPath dir userFile else homeFile
    | none => homeFile

/-- The settings in force. -/
def load (tree : FileTree) (surroundings : Surroundings) : Except SettingsError Settings :=
  loadFrom tree surroundings.environment (userPath tree surroundings) projectFile

end PreferenceInjector.Settings
