import Noxy.Fault
import Noxy.Text.Quoted
import Noxy.World

/-!
# Where modules are found

A module is a file with the extension `.nx` or a directory of modules.
-/

namespace Noxy.Modules

def extension : String :=
  ".nx"

def join (base name : String) : String :=
  if base = "." then name
  else if base.endsWith "/" then base ++ name
  else base ++ "/" ++ name

def lastName (path : String) : String :=
  (Disk.names path).getLast?.getD ""

def splitExtension (name : String) : String × String :=
  let characters := name.toList
  let afterDot := (characters.reverse.takeWhile fun c => c ≠ '.').reverse
  let count := characters.length - afterDot.length - 1
  if afterDot.length < characters.length ∧ 0 < count ∧ 0 < afterDot.length then
    (String.ofList (characters.take count), String.ofList (characters.drop count))
  else
    (name, "")

def moduleName (path : String) : String :=
  (splitExtension (lastName path)).1

def candidates (basePath libraryPath : String) (names : List String) : List String :=
  let path := "/".intercalate names
  [join basePath (path ++ extension), join basePath path,
    join libraryPath (path ++ extension), join libraryPath path]

def firstPresent (world : World) : List String → Except Fault (Option String)
  | [] => .ok none
  | path :: rest =>
    match world.disk.find world.workingDirectory path with
    | .ok _ => .ok (some path)
    | .error .tooLong => .error (.system (DiskError.tooLong.message (Text.quoted path)))
    | .error _ => firstPresent world rest

def locate (world : World) (basePath : String) (names : List String) :
    Except Fault (Option String) :=
  firstPresent world (candidates basePath (Disk.pathText world.library) names)

def absence (error : DiskError) (path : String) : Fault :=
  match error with
  | .notFound => .missing (error.message (Text.quoted path))
  | error => .system (error.message (Text.quoted path))

def isVisible (name : String) : Bool :=
  !(name.startsWith "." || name.startsWith "__")

def members (disk : Disk) (directory : Path) : List (String × String) :=
  ((disk.children directory).filter isVisible).filterMap fun name =>
    if disk.isDirectory (directory ++ [name]) then
      some (name, name)
    else
      let (stem, suffix) := splitExtension name
      if suffix = extension then some (stem, name) else none

def sourceText (disk : Disk) (content : Nat) : Except ReadError String :=
  OpenFile.readText (disk.content content)

end Noxy.Modules
