import PreferenceInjector.Command.Run
import PreferenceInjector.FileTree.Changes

/-!
# The command

The outer layer of the command reads the files that a run can look at into a tree, runs the task
on that tree, shows what the task says and carries its changes over to the files. It decides
nothing itself: which files matter follows from the settings and the plan.
-/

namespace PreferenceInjector.Command

/-- What is on disk at a path from the root, with everything below it; `none` for nothing. -/
partial def readNode (path : String) : IO (Option Node) := do
  let place := (← IO.currentDir) / path
  unless ← place.pathExists do return none
  unless ← place.isDir do return some (.file (← IO.FS.readBinFile place))
  let entries ← (← place.readDir).toList.filterMapM fun entry => do
    return (← readNode (joinPath path entry.fileName)).map ((entry.fileName, ·))
  return some (.dir entries)

/-- A tree with a node put at a place, below new directories where there are none. -/
def graft (node : Node) : Place → Node → Node
  | [], _ => node
  | name :: names, .dir entries =>
    .dir (Node.alterEntry name (fun child => some (graft node names (child.getD (.dir []))))
      entries)
  | name :: names, .file _ => .dir [(name, graft node names (.dir []))]

/-- The tree with what is on disk along a path: the directories on the way, and at its end a file or
a directory, with everything below it if `whole`. -/
def survey (whole : Bool) (tree : FileTree) (path : String) : IO FileTree := do
  let place := placeOf tree.cwd path
  let mut root := tree.root
  for length in List.range (place.length + 1) do
    let above := place.take length
    let text := pathText true above
    let found := (← IO.currentDir) / text
    if (← found.isDir) && !(whole && length == place.length) then
      if (root.at? above).isNone then root := graft (.dir []) above root
    else if let some node ← readNode text then
      root := graft node above root
  return { tree with root }

/-- The environment variables of the process. -/
def environmentVariables : IO (List (String × String)) := do
  let bytes ← try IO.FS.readBinFile "/proc/self/environ" catch _ => pure ByteArray.empty
  let entries := splitAt '\x00' ((String.fromUTF8? bytes).getD "")
  return entries.filterMap fun entry =>
    match splitAt '=' entry with
    | name :: value :: more => some (name, "=".intercalate (value :: more))
    | _ => none

/-- What a run knows besides the files. -/
def surroundings : IO Settings.Surroundings := do
  let environment ← environmentVariables
  let value (name : String) : Option String := (environment.find? (·.1 == name)).map (·.2)
  return { home := (value "HOME").getD "/", settingsHome := value "XDG_CONFIG_HOME", environment }

/-- The paths of all files from which settings may come. -/
def settingsPaths (cwd : Place) (around : Settings.Surroundings) : List String :=
  [joinPath (joinPath around.home ".config") Settings.userFile] ++
    around.settingsHome.toList.map (joinPath · Settings.userFile) ++
    (Settings.upwards cwd).map fun place => joinPath (pathText true place) Settings.projectFile

/-- The paths at which a task may write, on a tree that holds all declarations. -/
def targetPaths (tree : FileTree) (settings : Settings) : List String :=
  match (planOf tree settings).outcome with
  | .ok injectors => (sourcesOf injectors settings.outputDir settings.java).map (·.1)
  | .error _ => []

/-- The tree of all files that a task can look at. -/
def Task.surveyed (task : Task) (around : Settings.Surroundings) : IO FileTree := do
  let cwd := placeOf [] (← IO.currentDir).toString
  let bare ← survey false { root := .dir [], cwd } "."
  let tree ← (settingsPaths cwd around).foldlM (survey true) bare
  match Settings.load tree around, task with
  | .error _, _ => return tree
  | .ok settings, .check input extension _ =>
    survey true tree (overrideInput settings input extension).inputDir
  | .ok settings, .generate input extension output =>
    let settings := overrideAll settings input extension output
    let tree ← survey true tree settings.inputDir
    (targetPaths tree settings).foldlM (survey false) tree

/-- Carries changes over to the files. -/
def apply (changes : Changes) : IO Unit := do
  for path in changes.dirs do IO.FS.createDir ("/" ++ path)
  for (path, content) in changes.files do IO.FS.writeBinFile ("/" ++ path) content
  for path in changes.removed do IO.FS.removeFile ("/" ++ path)

/-- Runs a task on the files; the exit code tells whether it succeeded. -/
def Invocation.perform (invocation : Invocation) : IO UInt32 := do
  let around ← surroundings
  let tree ← invocation.task.surveyed around
  let (after, printed) := invocation.task.run tree around
  for event in printed.events.filter (·.isLogged invocation.verbose) do
    IO.eprintln event.logLine
  apply (Changes.between tree.root after.root)
  match printed.outcome with
  | .ok text =>
    IO.print text
    return 0
  | .error failure =>
    IO.eprintln ("Error: " ++ failure.message.getD "the settings cannot be read")
    return 1

end PreferenceInjector.Command

/-- The command: runs what its arguments ask for, or shows the help that they ask for. -/
def main (arguments : List String) : IO UInt32 := do
  match PreferenceInjector.Command.Invocation.ofArguments arguments with
  | .ok invocation => invocation.perform
  | .error interruption =>
    IO.print interruption.output
    if interruption.exitCode != 0 then IO.eprintln ("error: " ++ interruption.name)
    return interruption.exitCode.toUInt32
