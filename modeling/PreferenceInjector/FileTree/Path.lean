import PreferenceInjector.FileTree.Fault
import PreferenceInjector.Text.Pieces

/-!
# Paths

A path is a text of segments separated by slashes; one that starts with a slash is absolute.
Texts are joined without being normalised, since they are shown as they were given. To be
followed through a tree a path is read as a `Route`, which keeps the segments `.` and `..`.
-/

namespace PreferenceInjector

/-- A path with a segment added at its end: an absolute segment replaces the path, and no second
slash follows one at the end of the path. -/
def joinPath (path segment : String) : String :=
  match segment.toList with
  | '/' :: _ => segment
  | _ =>
    match path.toList.getLast? with
    | none | some '/' => path ++ segment
    | some _ => path ++ "/" ++ segment

/-- The way that a path describes. -/
structure Route where
  /-- Whether the way starts at the root instead of the working directory. -/
  fromRoot : Bool
  /-- The segments in order, `.` and `..` included. -/
  segments : List String
  /-- Whether a slash at the end asks for a directory. -/
  toDirectory : Bool
  deriving DecidableEq, Repr

/-- The least number of bytes of a path that is too long. -/
def pathLimit : Nat := 4096

/-- Whether a path is short enough to be followed. -/
def isShort (path : String) : Bool := path.utf8ByteSize < pathLimit

/-- The greatest number of bytes of a segment. -/
def segmentLimit : Nat := 255

/-- The way that a path text describes. An empty text leads nowhere. -/
def Route.ofPath (path : String) : Except Fault Route :=
  if path.toList.contains '\x00' then .error .zeroInPath
  else if path.isEmpty then .error .notFound
  else if pathLimit ≤ path.utf8ByteSize then .error .nameTooLong
  else .ok {
    fromRoot := path.toList.head? == some '/'
    segments := (splitAt '/' path).filter (! ·.isEmpty)
    toDirectory := path.toList.getLast? == some '/' }

/-- The segments of a path without those that stay where they are, except for a `.` that a
relative path starts with. -/
def pathSegments (path : String) : List String :=
  match (splitAt '/' path).filter (! ·.isEmpty) with
  | [] => []
  | first :: rest =>
    let rest := rest.filter (· != ".")
    if first == "." && path.toList.head? == some '/' then rest else first :: rest

/-- Segments written as a path. -/
def pathText (fromRoot : Bool) (segments : List String) : String :=
  (if fromRoot then "/" else "") ++ "/".intercalate segments

/-- What follows the last dot of a file name. A name without a dot, or whose only dot comes
first, has no extension. -/
def extension? (name : String) : Option String :=
  if name == ".." then none
  else
    let after := (name.toList.reverse.takeWhile (· != '.')).reverse
    if after.length + 1 < name.length then some (String.ofList after) else none

/-- The way from one directory to a place, both given by their names from the root: up to the
last common directory and down from there. -/
def relativeSegments : List String → List String → List String
  | base :: bases, name :: names =>
    if base = name then relativeSegments bases names
    else ".." :: (bases.map fun _ => "..") ++ name :: names
  | [], names => names
  | bases, [] => bases.map fun _ => ".."

end PreferenceInjector
