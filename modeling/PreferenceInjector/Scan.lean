import PreferenceInjector.Declaration.File
import PreferenceInjector.FileTree.Basic

/-!
# Scanning a directory

The declaration files of a directory are the files below it, at any depth, whose name has the
extension asked for. They are listed before the first of them is read, and read in the order of
their paths compared segment by segment, so neither the listing order nor a file of another
extension has an influence. The first file that cannot be read ends the scan.

What is listed in a directory is searched in turn when its path leads to a directory, and is taken
for a file otherwise. The path of a listed directory leads there unless it is too long, so the
length of the path is all that is asked of it. A directory that lies too deep is not searched, and
when its name has the extension it is listed as a file that cannot be read.
-/

namespace PreferenceInjector

open Declaration (File)

namespace Node

/-- A name as one that leads to a file with an extension, if it has the extension. -/
def named (extension name : String) : List (List String) :=
  if extension? name = some extension then [[name]] else []

mutual

/-- The names that lead to what is taken for a file with an extension, at a node that is named in
the directory with a path, and below it. The test tells which paths of directories lead to one. -/
def withExtension (isDir : String → Bool) (extension path name : String) :
    Node → List (List String)
  | .file _ => named extension name
  | .dir entries =>
    if isDir (joinPath path name) then
      (entriesWithExtension isDir extension (joinPath path name) entries).map (name :: ·)
    else named extension name

/-- The names that lead to what is taken for a file with an extension, among the entries of the
directory with a path and below them. -/
def entriesWithExtension (isDir : String → Bool) (extension path : String) :
    List (String × Node) → List (List String)
  | [] => []
  | (name, node) :: rest =>
    withExtension isDir extension path name node ++
      entriesWithExtension isDir extension path rest

end

end Node

/-- The declarations in the file at a path. -/
def scanFile (tree : FileTree) (path : String) : Reported File :=
  match tree.readText path with
  | .ok text => File.ofText path text
  | .error fault => Reported.fail (.file fault)

/-- The paths of the declaration files below a directory, in the order in which they are read. -/
def declarationPaths (dir extension : String) (entries : List (String × Node)) : List String :=
  ((Node.entriesWithExtension isShort extension dir entries).mergeSort namesLe).map
    (·.foldl joinPath dir)

/-- The declarations in all files with the given extension below a directory. -/
def scanDir (tree : FileTree) (dir extension : String) : Reported (List File) :=
  match tree.list dir with
  | .error fault => Reported.fail (.file fault)
  | .ok entries => do
    let paths := declarationPaths dir extension entries
    Reported.report (.scanning paths.length dir)
    Reported.forEach (scanFile tree) paths

end PreferenceInjector
