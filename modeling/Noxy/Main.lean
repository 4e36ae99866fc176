import Noxy.CommandLine
import Noxy.Library
import Std.Time.DateTime.Timestamp

/-!
# The program

Reads the files around the program into a disk, runs the command line, and writes back what was
changed.
-/

namespace Noxy.Main

def libraryDirectory : Path :=
  ["noxy", "library"]

def namesOf (text : String) : Path :=
  (text.splitOn "/").filter fun name => name ≠ ""

def isShown (name : String) : Bool :=
  !(name.startsWith ".")

partial def addEntry (disk : Disk) (entry : IO.FS.DirEntry) : IO Disk := do
  let path := namesOf entry.path.toString
  if !isShown entry.fileName then
    return disk
  else if ← entry.path.isDir then
    let mut disk := disk.addDirectories path
    for inner in (← entry.path.readDir) do
      disk ← addEntry disk inner
    return disk
  else
    try
      let content ← IO.FS.readBinFile entry.path
      return disk.addFile path content.toList
    catch _ => return disk

def addDirectory (disk : Disk) (path : String) : IO Disk := do
  let directory ← IO.FS.realPath path
  let mut disk := disk.addDirectories (namesOf directory.toString)
  for entry in (← directory.readDir) do
    disk ← addEntry disk entry
  return disk

def directoriesOf (arguments : List String) : IO (List String) := do
  let mut directories := []
  for argument in arguments do
    try
      let path ← IO.FS.realPath argument
      if let some directory := path.parent then
        directories := directory.toString :: directories
    catch _ => pure ()
  return directories

def variableNames : List String :=
  ["HOME", "LANG", "PATH", "PWD", "SHELL", "TMPDIR", "USER"]

def readWorld (arguments : List String) : IO World := do
  let here ← IO.currentDir
  let mut disk := Library.install libraryDirectory Disk.empty
  disk ← addDirectory disk here.toString
  for directory in (← directoriesOf arguments) do
    if directory ≠ here.toString then
      disk ← addDirectory disk directory
  let now ← Std.Time.Timestamp.now
  let clock := now.toMillisecondsSinceUnixEpoch.val.toNat
  let mut environment := []
  for name in variableNames do
    if let some value ← IO.getEnv name then
      environment := environment ++ [(name, value)]
  let world := World.start disk (namesOf here.toString) libraryDirectory ("noxy" :: arguments) clock
  return { world with environment }

def writeBack (before after : Disk) : IO Unit := do
  for (path, node) in after.nodes.reverse do
    match node with
    | .directory =>
      if !before.isDirectory path then
        IO.FS.createDirAll (Disk.pathText path)
    | .file number =>
      let content := after.content number
      let old := match before.node? path with
        | some (.file number) => some (before.content number)
        | _ => none
      if old ≠ some content then
        IO.FS.writeBinFile (Disk.pathText path) ⟨content.toArray⟩
  for (path, node) in before.nodes do
    if (after.node? path).isNone then
      match node with
      | .directory => IO.FS.removeDir (Disk.pathText path)
      | .file _ => IO.FS.removeFile (Disk.pathText path)

def exitCode (code : Value) : IO UInt32 := do
  match code, code.int? with
  | .null, _ => return 0
  | _, some number => return (number.emod 256).toNat.toUInt32
  | .string text, _ =>
    IO.eprintln text
    return 1
  | _, _ => return 1

def report : Ending → IO UInt32
  | .finished => return 0
  | .exited code => exitCode code
  | .left (.failure failure) => do
    IO.eprintln failure.message
    return 1
  | .left _ => return 1

def flush (machine : Machine) : IO Machine := do
  let output ← IO.getStdout
  output.putStr machine.output
  output.flush
  return { machine with output := "" }

partial def interact (repl : Repl) : IO (Machine × Ending) := do
  let machine ← flush (repl.write repl.prompt).machine
  let line ← (← IO.getStdin).getLine
  if line.isEmpty then
    return (machine, .finished)
  else
    let text := if line.endsWith "\n" then (line.dropEnd 1).toString else line
    match ({ repl with machine } : Repl).feed text with
    | (repl, .reading) => interact repl
    | (repl, .ended) => return (repl.machine, .finished)
    | (repl, .left signal) => return (repl.machine, CommandLine.endingOf signal)

def runIn (world : World) : IO (Machine × Ending) := do
  let loops : Bool := match Options.parse world.arguments.tail with
    | .ok options => !options.isHelp && (options.file.filter (· ≠ "")).isNone
    | .error _ => false
  if loops then
    interact ((Repl.start world).write Repl.banner)
  else
    let outcome := CommandLine.run world [] false
    IO.eprint outcome.errors
    return (outcome.machine, outcome.ending)

end Noxy.Main

open Noxy in
def main (arguments : List String) : IO UInt32 := do
  let world ← Main.readWorld arguments
  let (machine, ending) ← Main.runIn world
  let machine ← Main.flush machine
  Main.writeBack world.disk machine.world.disk
  Main.report ending
