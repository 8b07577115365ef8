import PreferenceInjector.FileTree.Disk
import PreferenceInjector.CompilationUnit

/-!
# Writing source files

The sources of a plan are written one after the other, each with the directories that hold it.
When one cannot be written, the files written before it are removed again, whether or not
something stood in their place; directories stay, and so does a file that could not be removed.
-/

namespace PreferenceInjector

/-- The path and the text of the source file of each injector. -/
def sourcesOf (injectors : List Injector) (outDir : String) (options : CompilationUnit.Options) :
    List (String × String) :=
  injectors.map fun injector =>
    (CompilationUnit.sourcePath outDir injector, CompilationUnit.render injector options)

variable {σ : Type} [Disk σ]

/-- The disk without the files at some paths, with an event for each file that stays. -/
def removeAll (disk : σ) : List String → σ × List Event
  | [] => (disk, [])
  | path :: rest =>
    match Disk.remove disk path with
    | .ok removed => removeAll removed rest
    | .error fault =>
      let (last, events) := removeAll disk rest
      (last, .removeFailed path fault :: events)

/-- The disk with some files written after the files at `written`, or without those files when
one cannot be written. -/
def writeAll (disk : σ) (written : List String) :
    List (String × String) → σ × Reported (List String)
  | [] => (disk, pure written)
  | (path, text) :: rest =>
    match Disk.writeWithDirs disk path text.toUTF8 with
    | (after, none) =>
      let (last, outcome) := writeAll after (written ++ [path]) rest
      (last, ⟨outcome.outcome, .wrote path :: outcome.events⟩)
    | (after, some fault) =>
      let (last, events) := removeAll after written
      (last, ⟨.error (.file fault), .writeFailed path fault :: events⟩)

/-- The disk with the sources of all injectors below an output directory, and their paths. -/
def writePlan (disk : σ) (injectors : List Injector) (outDir : String)
    (options : CompilationUnit.Options) : σ × Reported (List String) :=
  writeAll disk [] (sourcesOf injectors outDir options)

end PreferenceInjector
