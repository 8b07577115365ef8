import PreferenceInjector.FileTree.Path

/-!
# Trees of directories and files

The files a pass reads and writes as a value: a tree of named directories and files, together
with the working directory from which relative paths start. A place in the tree is the list of
names that leads to it from the root. Each operation follows a path and either changes the tree
at one place or fails with a `Fault` and leaves it as it was; only `makeDirs` may fail after it
has made some of the directories.
-/

namespace PreferenceInjector

/-- A file with its bytes, or a directory with its entries in the order of their listing. -/
inductive Node where
  | file (content : ByteArray)
  | dir (entries : List (String × Node))

/-- The names that lead from the root of a tree to a place in it. -/
abbrev Place := List String

/-- The place that one segment leads to, when it is there: `.` stays and `..` goes up. -/
def Place.enter (place : Place) (segment : String) : Place :=
  if segment = "." then place
  else if segment = ".." then place.dropLast
  else place ++ [segment]

/-- The place that a path leads to from a directory, when nothing on the way is missing. -/
def placeOf (cwd : Place) (path : String) : Place :=
  ((splitAt '/' path).filter (! ·.isEmpty)).foldl Place.enter
    (if path.toList.head? == some '/' then [] else cwd)

namespace Node

/-- Whether a node is a directory. -/
def isDir : Node → Bool
  | file _ => false
  | dir _ => true

/-- The entry of a given name. -/
def child? (name : String) : List (String × Node) → Option Node
  | [] => none
  | (key, node) :: rest => if key = name then some node else child? name rest

/-- The entries with the one of a given name replaced, added or taken away. -/
def alterEntry (name : String) (change : Option Node → Option Node) :
    List (String × Node) → List (String × Node)
  | [] =>
    match change none with
    | some node => [(name, node)]
    | none => []
  | (key, node) :: rest =>
    if key = name then
      match change (some node) with
      | some changed => (key, changed) :: rest
      | none => rest.filter (·.1 != name)
    else (key, node) :: alterEntry name change rest

/-- The node at a place. -/
def at? : Node → Place → Option Node
  | node, [] => some node
  | file _, _ :: _ => none
  | dir entries, name :: names => (child? name entries).bind (at? · names)

/-- The tree with the node at a place replaced, added or taken away. The root stays, and so does
a tree that has no directory to hold the place. -/
def alter (change : Option Node → Option Node) : Place → Node → Node
  | [], node => node
  | _, file content => file content
  | [name], dir entries => dir (alterEntry name change entries)
  | name :: names, dir entries =>
    dir (alterEntry name (fun child => child.map (alter change names)) entries)

mutual

/-- All places below a node, with what is there. -/
def places : Node → List (Place × Node)
  | file _ => []
  | dir entries => entryPlaces entries

/-- All places below the entries of a directory, with what is there. -/
def entryPlaces : List (String × Node) → List (Place × Node)
  | [] => []
  | (name, node) :: rest =>
    ([name], node) :: (places node).map (fun (names, found) => (name :: names, found)) ++
      entryPlaces rest

end

end Node

/-- A tree of directories and files, and the directory that relative paths start from. -/
structure FileTree where
  /-- The root directory. -/
  root : Node
  /-- The place of the working directory. -/
  cwd : Place := []

namespace FileTree

/-- The place that one segment leads to from a directory. -/
def step (root : Node) (place : Place) (segment : String) : Except Fault Place :=
  match root.at? place with
  | some (.dir entries) =>
    if segment = "." then .ok place
    else if segment = ".." then .ok place.dropLast
    else if segmentLimit < segment.utf8ByteSize then .error .nameTooLong
    else if (Node.child? segment entries).isSome then .ok (place ++ [segment])
    else .error .notFound
  | some (.file _) => .error .notDirectory
  | none => .error .notFound

/-- The place that segments lead to from a directory. -/
def follow (root : Node) : Place → List String → Except Fault Place
  | place, [] => .ok place
  | place, segment :: rest => do follow root (← step root place segment) rest

/-- The directory that a route starts from. -/
def start (tree : FileTree) (route : Route) : Place := if route.fromRoot then [] else tree.cwd

/-- What stands at the end of an existing path. -/
def find (tree : FileTree) (path : String) : Except Fault Node := do
  let route ← Route.ofPath path
  let place ← follow tree.root (tree.start route) route.segments
  match tree.root.at? place with
  | some (.dir entries) => .ok (.dir entries)
  | some (.file content) => if route.toDirectory then .error .notDirectory else .ok (.file content)
  | none => .error .notFound

/-- Whether a path leads to a directory. -/
def isDir (tree : FileTree) (path : String) : Bool :=
  match tree.find path with
  | .ok node => node.isDir
  | .error _ => false

/-- Whether a path leads to a file. -/
def isFile (tree : FileTree) (path : String) : Bool :=
  match tree.find path with
  | .ok node => ! node.isDir
  | .error _ => false

/-- Whether a path leads anywhere. -/
def pathExists (tree : FileTree) (path : String) : Bool := (tree.find path).isOk

/-- The entries of a directory. -/
def list (tree : FileTree) (path : String) : Except Fault (List (String × Node)) := do
  match ← tree.find path with
  | .dir entries => .ok entries
  | .file _ => .error .notDirectory

/-- The content of a file. -/
def read (tree : FileTree) (path : String) : Except Fault ByteArray := do
  match ← tree.find path with
  | .dir _ => .error .isDirectory
  | .file content => .ok content

/-- The content of a file as text. -/
def readText (tree : FileTree) (path : String) : Except Fault String := do
  match String.fromUTF8? (← tree.read path) with
  | some text => .ok text
  | none => .error .notText

/-- The last step of a path that is to be created or removed. -/
inductive Target where
  /-- A name in an existing directory, and what stands there. -/
  | name (place : Place) (found : Option Node)
  /-- The root, or a place given by `.` or `..`. -/
  | unnamed

/-- Where a route ends, its last segment not being followed. -/
def target (tree : FileTree) (route : Route) : Except Fault Target := do
  match route.segments.getLast? with
  | none => .ok .unnamed
  | some last =>
    let dir ← follow tree.root (tree.start route) route.segments.dropLast
    match tree.root.at? dir with
    | some (.dir entries) =>
      if last = "." ∨ last = ".." then .ok .unnamed
      else if segmentLimit < last.utf8ByteSize then .error .nameTooLong
      else .ok (.name (dir ++ [last]) (Node.child? last entries))
    | some (.file _) => .error .notDirectory
    | none => .error .notFound

/-- The tree with a node put at a place. -/
def put (tree : FileTree) (place : Place) (node : Node) : FileTree :=
  { tree with root := tree.root.alter (fun _ => some node) place }

/-- The tree with a new directory. -/
def makeDir (tree : FileTree) (path : String) : Except Fault FileTree := do
  match ← tree.target (← Route.ofPath path) with
  | .name place none => .ok (tree.put place (.dir []))
  | .name _ (some _) | .unnamed => .error .alreadyExists

/-- The tree with a file of the given content, which replaces the content of an earlier file. -/
def write (tree : FileTree) (path : String) (content : ByteArray) : Except Fault FileTree := do
  let route ← Route.ofPath path
  match ← tree.target route with
  | .name _ (some (.dir _)) | .unnamed => .error .isDirectory
  | .name place _ =>
    if route.toDirectory then .error .isDirectory else .ok (tree.put place (.file content))

/-- The tree without the file at a path. -/
def remove (tree : FileTree) (path : String) : Except Fault FileTree := do
  let route ← Route.ofPath path
  match ← tree.target route with
  | .unnamed | .name _ (some (.dir _)) => .error .isDirectory
  | .name _ none => .error .notFound
  | .name place (some (.file _)) =>
    if route.toDirectory then .error .notDirectory
    else .ok { tree with root := tree.root.alter (fun _ => none) place }

/-- The tree with the directory of the given segments, last one first, and all directories above
it. Where the directory cannot be made because the one above it is missing, that one is made
first; any other fault counts unless the directory is there. Directories that were made before a
fault stay. -/
def makeDirs (tree : FileTree) (fromRoot : Bool) : List String → FileTree × Option Fault
  | [] => (tree, none)
  | last :: above =>
    let path := pathText fromRoot (last :: above).reverse
    let settle (tree : FileTree) (fault : Fault) : FileTree × Option Fault :=
      (tree, if tree.isDir path then none else some fault)
    match tree.makeDir path with
    | .ok made => (made, none)
    | .error .notFound =>
      match makeDirs tree fromRoot above with
      | (above, some fault) => (above, some fault)
      | (above, none) =>
        match above.makeDir path with
        | .ok made => (made, none)
        | .error fault => settle above fault
    | .error fault => settle tree fault

/-- The tree with the directories that hold a path. -/
def makeParents (tree : FileTree) (path : String) : FileTree × Option Fault :=
  tree.makeDirs (path.toList.head? == some '/') (pathSegments path).dropLast.reverse

end FileTree

end PreferenceInjector
