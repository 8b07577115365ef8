import PreferenceInjector.Command.Help
import PreferenceInjector.Command.Json
import PreferenceInjector.Output
import PreferenceInjector.Registry
import PreferenceInjector.Scan
import PreferenceInjector.Settings.Load

/-!
# Running the command

Both subcommands load the settings, let the options override them and make the plan of the
declarations found. `check` shows the plan and leaves the files alone; `generate` writes it.
-/

namespace PreferenceInjector.Command

/-- The settings with the options on declaration files over them; dots in front of an extension do
not count. -/
def overrideInput (settings : Settings) (input extension : Option String) : Settings :=
  { settings with
    inputDir := input.getD settings.inputDir
    extension := match extension with
      | some text => String.ofList (text.toList.dropWhile (· == '.'))
      | none => settings.extension }

/-- The plan of the declarations that the settings lead to. -/
def planOf (tree : FileTree) (settings : Settings) : Reported (List Injector) := do
  let files ← scanDir tree settings.inputDir settings.extension
  PreferenceInjector.generate files

/-- A plan as one line for each injector and for each of its assignments, and their number. -/
def summary (injectors : List Injector) : String :=
  linesText (injectors.flatMap (fun injector =>
    injector.qualified :: injector.assignments.map ("  " ++ ·.text)) ++
    [s!"{injectors.length} injector(s) resolved"])

/-- The text that `check` shows for a plan. -/
def planText (json : Bool) (injectors : List Injector) : String :=
  if json then linesText [(Json.ofPlan injectors).pretty 0] else summary injectors

/-- The text that `check` puts on standard output. -/
def check (tree : FileTree) (surroundings : Settings.Surroundings)
    (input extension : Option String) (json : Bool) : Reported String := do
  let settings ← Reported.ofExcept ((Settings.load tree surroundings).mapError Failure.settings)
  let injectors ← planOf tree (overrideInput settings input extension)
  pure (planText json injectors)

/-- The tree that a pass leaves, and the paths that it has written. -/
def runPass (tree : FileTree) (settings : Settings) : FileTree × Reported (List String) :=
  match planOf tree settings with
  | ⟨.error failure, events⟩ => (tree, ⟨.error failure, events⟩)
  | ⟨.ok injectors, events⟩ =>
    let (after, written) := writePlan tree injectors settings.outputDir settings.java
    (after, do
      ⟨.ok (), events⟩
      let paths ← written
      Reported.report (.generated paths.length settings.outputDir)
      pure paths)

/-- The settings with all options of `generate` over them. -/
def overrideAll (settings : Settings) (input extension output : Option String) : Settings :=
  { overrideInput settings input extension with
    outputDir := output.getD settings.outputDir }

/-- The tree that `generate` leaves, and the paths that it has written. -/
def generate (tree : FileTree) (surroundings : Settings.Surroundings)
    (input extension output : Option String) : FileTree × Reported (List String) :=
  match Settings.load tree surroundings with
  | .error error => (tree, Reported.fail (.settings error))
  | .ok settings => runPass tree (overrideAll settings input extension output)

/-- The tree that a task leaves, and the text that it puts on standard output. -/
def Task.run (tree : FileTree) (surroundings : Settings.Surroundings) :
    Task → FileTree × Reported String
  | .generate input extension output =>
    let (after, written) := Command.generate tree surroundings input extension output
    (after, (fun _ => "") <$> written)
  | .check input extension json => (tree, Command.check tree surroundings input extension json)

end PreferenceInjector.Command
