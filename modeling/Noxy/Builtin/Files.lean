import Noxy.Builtin.Handle

/-!
# Files and directories

Functions that open, read and write files and change directories.
-/

namespace Noxy.Builtin

def path? : Value → Option String
  | .string text => some text
  | .bytes content => some (Text.Utf8.decode content)
  | _ => none

def openPath (path : String) (mode : FileMode) : Exec (Option Nat) := do
  let world ← Exec.world id
  let opened : Except DiskError (Nat × Disk) := do
    match mode with
    | .read =>
      match ← world.disk.find world.workingDirectory path with
      | (_, .file content) => return (content, world.disk)
      | (_, .directory) => throw .isDirectory
    | .write =>
      let resolved ← world.disk.resolve world.workingDirectory path
      let (content, disk) ← world.disk.openForWriting resolved
      return (content, disk.setContent content [])
    | .append =>
      let resolved ← world.disk.resolve world.workingDirectory path
      world.disk.openForWriting resolved
  match opened with
  | .error _ => return none
  | .ok (content, disk) =>
    let (handle, files) := world.files.add ⟨content, mode, 0, .none⟩
    Exec.changeWorld fun world => { world with disk := disk, files := files }
    return some handle

def ioOpen (path mode : Value) : Exec Value := do
  match mode.string?.bind FileMode.ofText? with
  | none => Exec.fail (.fileMode (← Exec.view fun heap => heap.plain mode))
  | some fileMode =>
    let handle ← match path? path with
      | some path => openPath path fileMode
      | none => pure none
    Exec.struct "File" [("fd", .int (handle.elim (-1) Int.ofNat)), ("path", path),
      ("mode", mode), ("open", .bool handle.isSome)]

def ioClose (file : Value) : Exec Value := do
  let (_, handle) ← partOf file "fd"
  let (_, isOpen) ← partOf file "open"
  if ← Exec.look fun heap => isFilled heap isOpen then
    let files ← Exec.world World.files
    if let some number ← openHandle? files handle then
      Exec.changeWorld fun world => { world with files := world.files.close number }
    setPart file "open" (.bool false)
  return .null

def ioResult (ok : Bool) (data : Value) (error : String) : Exec Value :=
  Exec.struct "IOResult" [("ok", .bool ok), ("data", data), ("error", .string error)]

def openFile? (file : Value) : Exec (Option (Nat × OpenFile)) := do
  let files ← Exec.world World.files
  match ← handleIn? files file "fd" with
  | some handle => return (files.get? handle).map fun file => (handle, file)
  | none => return none

def readFrom (handle : Nat) (file : OpenFile)
    (read : OpenFile → Disk → Except ReadError α × OpenFile) :
    Exec (Except ReadError α) := do
  let disk ← Exec.world World.disk
  let (result, file) := read file disk
  Exec.changeWorld fun world => { world with files := world.files.update handle file }
  return result

def reading (read : OpenFile → Disk → Except ReadError String × OpenFile) (file : Value) :
    Exec Value := do
  match ← openFile? file with
  | none => ioResult false (.string "") "Arquivo fechado ou inválido"
  | some (handle, file) =>
    match ← readFrom handle file read with
    | .ok text => ioResult true (.string text) ""
    | .error error => ioResult false (.string "") error.message

def ioReadLines (file : Value) : Exec Value := do
  match ← openFile? file with
  | none => ioResult false (← Exec.list []) "Arquivo fechado"
  | some (handle, file) =>
    match ← readFrom handle file OpenFile.readLines with
    | .ok lines => ioResult true (← Exec.list (lines.map .string)) ""
    | .error error => ioResult false (← Exec.list []) error.message

def ioWrite (file content : Value) : Exec Value := do
  if let some (handle, file) ← openFile? file then
    match ← Exec.look fun heap => heap.plain content with
    | .ok text =>
      Exec.changeWorld fun world =>
        let (file, disk) := file.write world.disk text
        { world with disk := disk, files := world.files.update handle file }
    | .error _ => pure ()
  return .null

def nodeAt (path : String) : Exec (Except DiskError (Path × Node)) :=
  Exec.world fun world => world.disk.find world.workingDirectory path

def notPath (operation accepted : String) (value : Value) : Exec Fault := do
  let name ← Exec.look fun heap => heap.className value
  return .kind s!"{operation}: path should be {accepted}, not {name}"

def isChannel (number : Int) : Bool :=
  0 ≤ number && number ≤ 2

def channelFault? (number : Int) : Option Fault :=
  if number < -0x80000000 then some (.overflow "fd is less than minimum")
  else if 0x80000000 ≤ number then some (.overflow "fd is greater than maximum")
  else none

def ioExists (value : Value) : Exec Value := do
  match path? value, value.int? with
  | some path, _ => return .bool (← nodeAt path).isOk
  | none, some number =>
    match channelFault? number with
    | some fault => Exec.fault fault
    | none => return .bool (isChannel number)
  | none, none => Exec.fault (← notPath "stat" "string, bytes, os.PathLike or integer" value)

def ioStat (value : Value) : Exec Value := do
  let disk ← Exec.world World.disk
  let (isThere, size, isDirectory) ← match path? value with
    | some path => do
      match ← nodeAt path with
      | .ok (place, node) => pure (true, disk.nodeSize place node, decide (node = .directory))
      | .error _ => pure (false, 0, false)
    | none => pure ((value.int?.map isChannel).getD false, 0, false)
  Exec.struct "FileInfo" [("exists", .bool isThere), ("size", .int size),
    ("is_dir", .bool isDirectory)]

def changing (change : World → Except DiskError World) : Exec Value := do
  match ← Exec.world change with
  | .ok world =>
    Exec.changeWorld fun _ => world
    return .bool true
  | .error _ => return .bool false

def ioRemove (value : Value) : Exec Value :=
  match path? value with
  | none => pure (.bool false)
  | some path => changing fun world => do
    unless Disk.endsInName path do
      throw .invalid
    let place ← world.disk.resolve world.workingDirectory path
    return { world with disk := ← world.disk.remove place }.without place

def ioRename (source target : Value) : Exec Value :=
  match path? source, path? target with
  | some source, some target => changing fun world => do
    unless Disk.endsInName source && Disk.endsInName target do
      throw .invalid
    let source ← world.disk.resolve world.workingDirectory source
    let target ← world.disk.resolve world.workingDirectory
      (if world.disk.isDirectory source then Disk.withoutFinalSlashes target else target)
    let disk ← world.disk.rename source target
    if source = target then
      return world
    else
      let world := { world with disk }.without target
      let workingDirectory := Disk.movedPath source target world.workingDirectory
      return { world with workingDirectory }
  | _, _ => pure (.bool false)

def ioMkdir (value : Value) : Exec Value :=
  match path? value with
  | none => pure (.bool false)
  | some path => changing fun world => do
    let disk ← world.disk.makeDirectory
      (← world.disk.resolve world.workingDirectory (Disk.withoutFinalSlashes path))
    return { world with disk }

def namesAt (path : String) : Exec (Except DiskError (List String)) := do
  let disk ← Exec.world World.disk
  match ← nodeAt path with
  | .ok (resolved, .directory) => return .ok (disk.children resolved)
  | .ok (_, .file _) => return .error .notDirectory
  | .error error => return .error error

def ioListDir (value : Value) : Exec Value := do
  let listed (path : String) (name : String → Value) : Exec Value := do
    match ← namesAt path with
    | .ok names => ioResult true (← Exec.list (names.map name)) ""
    | .error error =>
      let shown ← Exec.view fun heap => heap.quoted value
      ioResult false (← Exec.list []) (error.message shown)
  match value with
  | .null => listed "." .string
  | .string path => listed path .string
  | .bytes content => listed (Text.Utf8.decode content) fun name => .bytes (Text.Utf8.encode name)
  | value =>
    match value.int? with
    | some number =>
      let shown ← Exec.view fun heap => heap.plain value
      let error := match channelFault? number with
        | some fault => fault.text
        | none =>
          if isChannel number then "[Errno 20] Not a directory: " ++ shown
          else "[Errno 9] Bad file descriptor: " ++ shown
      ioResult false (← Exec.list []) error
    | none =>
      let fault ← notPath "listdir" "string, bytes, os.PathLike, integer or None" value
      ioResult false (← Exec.list []) fault.text

def files : List Builtin :=
  let named (name : String) (parameters : List String) (body : List Value → Exec Value) :=
    plain ("io_" ++ name) ("io_" ++ name) parameters body
  [named "open" ["path", "mode"] (binary ioOpen),
    named "close" ["file_struct"] (unary ioClose),
    named "read" ["file_struct"] (unary (reading OpenFile.readAll)),
    named "read_line" ["file_struct"] (unary (reading OpenFile.readLine)),
    named "read_lines" ["file_struct"] (unary ioReadLines),
    named "write" ["file_struct", "content"] (binary ioWrite),
    named "exists" ["path"] (unary ioExists),
    named "stat" ["path"] (unary ioStat),
    named "remove" ["path"] (unary ioRemove),
    named "rename" ["src", "dst"] (binary ioRename),
    named "mkdir" ["path"] (unary ioMkdir),
    named "list_dir" ["path"] (unary ioListDir)]

end Noxy.Builtin
