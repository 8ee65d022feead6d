import TaskGraph.Files.Fault
import TaskGraph.Files.Path

namespace TaskGraph

/-- What can be at a place. -/
inductive FileNode where
  | directory
  | file (contents : ByteArray)

/-- A place: the names on the way from the root. -/
abbrev Place : Type := List String

/-- The directories and files below the root, with the place from which relative paths start. There
    are no links between them. -/
structure FileTree where
  entries : List (Place × FileNode)
  current : Place

namespace FileTree

/-- The longest name, in bytes, that a directory can hold. -/
def maxNameBytes : Nat := 255

/-- The number of bytes from which on a path is too long. -/
def maxPathBytes : Nat := 4096

/-- What is at a place. The root is always a directory. -/
def node? (t : FileTree) (place : Place) : Option FileNode :=
  if place.isEmpty then some .directory else t.entries.lookup place

/-- Whether there is a directory at a place. -/
def isDirectory (t : FileTree) (place : Place) : Bool :=
  match t.node? place with
  | some .directory => true
  | _ => false

/-- Entries with a node put at a place, instead of the one there or at the end. -/
def put (place : Place) (node : FileNode) : List (Place × FileNode) → List (Place × FileNode)
  | [] => [(place, node)]
  | (p, n) :: rest =>
    if p = place then (place, node) :: rest else (p, n) :: put place node rest

/-- The tree with a node at a place. -/
def set (t : FileTree) (place : Place) (node : FileNode) : FileTree :=
  { t with entries := put place node t.entries }

theorem lookup_put (place p : Place) (node : FileNode) (entries : List (Place × FileNode)) :
    (put place node entries).lookup p = if p = place then some node else entries.lookup p := by
  induction entries with
  | nil => grind [put]
  | cons entry rest ih => grind [put]

/-- Only the place that was set has changed. -/
theorem node?_set (t : FileTree) {place : Place} (h : place ≠ []) (p : Place) (node : FileNode) :
    (t.set place node).node? p = if p = place then some node else t.node? p := by
  by_cases hp : p = []
  · simp [node?, hp, Ne.symm h]
  · simp [node?, set, lookup_put, hp]

/-- Faults that a path has whatever the tree: a zero byte, no step at all, or too many bytes. -/
def checkPath (path : String) : Except FileFault Unit :=
  if path.toList.contains '\x00' then .error .nulInName
  else if path.isEmpty then .error .notFound
  else if maxPathBytes ≤ path.utf8ByteSize then .error .nameTooLong
  else .ok ()

/-- The place where a path starts. -/
def origin (t : FileTree) (path : String) : Place :=
  if Path.isAbsolute path then [] else t.current

/-- The place to which one more step leads from a directory. An empty step and `.` stay there, `..`
    goes up, and any other step goes to an entry. -/
def follow (t : FileTree) (place : Place) (step : String) : Except FileFault Place :=
  if ¬t.isDirectory place then .error .notDirectory
  else if step = "" ∨ step = "." then .ok place
  else if step = ".." then .ok place.dropLast
  else if maxNameBytes < step.utf8ByteSize then .error .nameTooLong
  else if (t.node? (place ++ [step])).isSome then .ok (place ++ [step])
  else .error .notFound

/-- The place to which steps lead. -/
def walk (t : FileTree) (place : Place) (steps : List String) : Except FileFault Place :=
  steps.foldlM t.follow place

/-- The bytes of the file at a path. -/
def readBytes (t : FileTree) (path : String) : Except FileFault ByteArray := do
  checkPath path
  let place ← t.walk (t.origin path) (Path.steps path)
  match t.node? place with
  | some (.file contents) => .ok contents
  | some .directory => .error .isDirectory
  | none => .error .notFound

/-- The text of the file at a path. -/
def readText (t : FileTree) (path : String) : Except FileFault String := do
  match String.fromUTF8? (← t.readBytes path) with
  | some text => .ok text
  | none => .error .notText

/-- The place where the last step of a path puts a file: the steps before it must lead to a
    directory, and the last one must be a name that is no directory there. -/
def placeForFile (t : FileTree) (path : String) : Except FileFault Place := do
  checkPath path
  let steps := (Path.steps path).reverse.dropWhile (·.isEmpty)
  let name := steps.headD ""
  let parent ← t.walk (t.origin path) (steps.drop 1).reverse
  if ¬t.isDirectory parent then
    throw .notDirectory
  if name = "" ∨ name = "." ∨ name = ".." ∨ path.toList.getLast? = some '/' then
    throw .isDirectory
  if maxNameBytes < name.utf8ByteSize then
    throw .nameTooLong
  if t.isDirectory (parent ++ [name]) then
    throw .isDirectory
  return parent ++ [name]

/-- The tree after a text was written to the file at a path, which is made if need be. -/
def writeText (t : FileTree) (path text : String) : Except FileFault FileTree := do
  return t.set (← t.placeForFile path) (.file text.toUTF8)

/-- The tree with directories at a place and at all places on the way to it. -/
def makeDirectories (t : FileTree) (place : Place) : FileTree :=
  (List.range (place.length + 1)).foldl (fun t i =>
    let onTheWay := place.take i
    if (t.node? onTheWay).isSome then t else t.set onTheWay .directory) t

/-- What is below a place, by the names on the way from there. -/
def below (t : FileTree) (place : Place) : List (Place × FileNode) :=
  t.entries.filterMap fun (p, node) =>
    if place.isPrefixOf p && place.length < p.length then some (p.drop place.length, node) else none

end FileTree

end TaskGraph
