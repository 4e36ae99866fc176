import Noxy.Text.Utf8

/-!
# Files and directories

A disk is a tree of directories and files.
-/

namespace Noxy

abbrev Path :=
  List String

inductive DiskError where
  | notFound
  | notDirectory
  | isDirectory
  | occupied
  | notEmpty
  | invalid
  | tooLong
  | nullCharacter
  deriving DecidableEq, Repr

namespace DiskError

def message (error : DiskError) (path : String) : String :=
  match error with
  | notFound => "[Errno 2] No such file or directory: " ++ path
  | notDirectory => "[Errno 20] Not a directory: " ++ path
  | isDirectory => "[Errno 21] Is a directory: " ++ path
  | occupied => "[Errno 17] File exists: " ++ path
  | notEmpty => "[Errno 39] Directory not empty: " ++ path
  | invalid => "[Errno 22] Invalid argument: " ++ path
  | tooLong => "[Errno 36] File name too long: " ++ path
  | nullCharacter => "embedded null byte"

end DiskError

inductive Node where
  | directory
  | file (content : Nat)
  deriving DecidableEq, Repr

/-- A directory is listed in the order of the nodes, whatever that order is; a new one comes
first. -/
structure Disk where
  nodes : List (Path × Node)
  contents : Array (List UInt8)

namespace Disk

def empty : Disk :=
  ⟨[], #[]⟩

def removedPath (path : Path) : Path :=
  path.dropLast ++ ["/"]

def isRemoved (path : Path) : Bool :=
  path.getLast? = some "/"

def node? (disk : Disk) (path : Path) : Option Node :=
  if path.isEmpty || isRemoved path then some .directory else disk.nodes.lookup path

def isDirectory (disk : Disk) (path : Path) : Bool :=
  disk.node? path = some .directory && !isRemoved path

def maxNameSize : Nat :=
  255

def maxPathSize : Nat :=
  4095

def follow (disk : Disk) (path : Path) : List String → Except DiskError Path
  | [] => .ok path
  | name :: rest =>
    match disk.node? path with
    | none => .error .notFound
    | some (.file _) => .error .notDirectory
    | some .directory =>
      if name = "" ∨ name = "." then
        disk.follow path rest
      else if name = ".." then
        disk.follow path.dropLast rest
      else if maxNameSize < name.utf8ByteSize then
        .error .tooLong
      else
        disk.follow (path ++ [name]) rest

def names (text : String) : List String :=
  (text.toList.splitOn '/').map String.ofList

def resolve (disk : Disk) (workingDirectory : Path) (text : String) : Except DiskError Path :=
  if text.toList.contains (Char.ofNat 0) then
    .error .nullCharacter
  else if text.isEmpty then
    .error .notFound
  else if maxPathSize < text.utf8ByteSize then
    .error .tooLong
  else
    let start := if text.startsWith "/" then [] else workingDirectory
    disk.follow start (names text)

def enter (path : Path) (name : String) : Path :=
  if name = "" ∨ name = "." then path
  else if name = ".." then path.dropLast
  else path ++ [name]

def normalize (workingDirectory : Path) (text : String) : Path :=
  let start := if text.startsWith "/" then [] else workingDirectory
  (names text).foldl enter start

def withoutFinalSlashes (text : String) : String :=
  let kept := (text.toList.reverse.dropWhile fun c => c = '/').reverse
  if kept.isEmpty then text else String.ofList kept

def endsInName (text : String) : Bool :=
  let last := (names (withoutFinalSlashes text)).getLast?.getD ""
  last ≠ "." && last ≠ ".."

def pathText (path : Path) : String :=
  "/" ++ "/".intercalate path

def find (disk : Disk) (workingDirectory : Path) (text : String) :
    Except DiskError (Path × Node) := do
  let path ← disk.resolve workingDirectory text
  match disk.node? path with
  | some node => return (path, node)
  | none => throw .notFound

def content (disk : Disk) (number : Nat) : List UInt8 :=
  disk.contents[number]?.getD []

def children (disk : Disk) (path : Path) : List String :=
  disk.nodes.filterMap fun (other, _) => if other.dropLast = path then other.getLast? else none

def add (disk : Disk) (path : Path) (node : Node) : Disk :=
  { disk with nodes := (path, node) :: disk.nodes }

def addDirectories (disk : Disk) (path : Path) : Disk :=
  (List.range (path.length + 1)).foldl (fun disk count =>
    let directory := path.take count
    if (disk.node? directory).isSome then disk else disk.add directory .directory) disk

def addFile (disk : Disk) (path : Path) (bytes : List UInt8) : Disk :=
  let disk := disk.addDirectories path.dropLast
  match disk.node? path with
  | some (.file number) => { disk with contents := disk.contents.setIfInBounds number bytes }
  | _ => { disk with
      nodes := (path, .file disk.contents.size) :: disk.nodes
      contents := disk.contents.push bytes }

def makeDirectory (disk : Disk) (path : Path) : Except DiskError Disk :=
  if (disk.node? path).isSome then
    .error .occupied
  else if disk.isDirectory path.dropLast then
    .ok (disk.add path .directory)
  else
    .error .notFound

def remove (disk : Disk) (path : Path) : Except DiskError Disk :=
  match disk.node? path with
  | none => .error .notFound
  | some .directory =>
    if (disk.children path).isEmpty then
      .ok { disk with nodes := disk.nodes.filter fun node => node.1 ≠ path }
    else
      .error .notEmpty
  | some (.file _) => .ok { disk with nodes := disk.nodes.filter fun node => node.1 ≠ path }

def movedPath (source target path : Path) : Path :=
  if source.isPrefixOf path then target ++ path.drop source.length else path

def rename (disk : Disk) (source target : Path) : Except DiskError Disk := do
  let moving ← (disk.node? source).elim (throw .notFound) pure
  if source = target then
    return disk
  if source.isPrefixOf target then
    throw .invalid
  unless disk.isDirectory target.dropLast do
    throw .notFound
  match moving, disk.node? target with
  | .file _, some .directory => throw .isDirectory
  | .directory, some (.file _) => throw .notDirectory
  | .directory, some .directory =>
    unless (disk.children target).isEmpty do
      throw .notEmpty
  | _, _ => pure ()
  let kept := disk.nodes.filter fun node => node.1 ≠ target
  return { disk with nodes := kept.map fun node => (movedPath source target node.1, node.2) }

def openForWriting (disk : Disk) (path : Path) : Except DiskError (Nat × Disk) :=
  match disk.node? path with
  | some .directory => .error .isDirectory
  | some (.file number) => .ok (number, disk)
  | none =>
    if disk.isDirectory path.dropLast then
      .ok (disk.contents.size, disk.addFile path [])
    else
      .error .notFound

def setContent (disk : Disk) (number : Nat) (bytes : List UInt8) : Disk :=
  { disk with contents := disk.contents.setIfInBounds number bytes }

def writeAt (disk : Disk) (number position : Nat) (bytes : List UInt8) : Disk :=
  let old := disk.content number
  let before := old.take position ++ List.replicate (position - old.length) 0
  disk.setContent number (before ++ bytes ++ old.drop (position + bytes.length))

def directorySize : Nat :=
  4096

def nodeSize (disk : Disk) (path : Path) : Node → Nat
  | .directory => if isRemoved path then 0 else directorySize
  | .file number => (disk.content number).length

end Disk

def unifyNewlines : List Char → List Char
  | [] => []
  | '\r' :: '\n' :: rest => '\n' :: unifyNewlines rest
  | '\r' :: rest => '\n' :: unifyNewlines rest
  | c :: rest => c :: unifyNewlines rest

end Noxy
