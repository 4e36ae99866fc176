import Noxy.Builtin.Duration
import Noxy.Builtin.Files

/-!
# The system

Shell commands, variables of the environment, the working directory, the arguments of the program
and its end.
-/

namespace Noxy.Builtin

def sysResult (code : Int) (output error : String) : Exec Value :=
  Exec.struct "SysResult" [("ok", .bool (code = 0)), ("output", .string output),
    ("exit_code", .int code), ("error", .string error)]

def commandLine (value : Value) : Exec (Except String String) := do
  let single (value : Value) : Exec (Except String String) := do
    match value with
    | .string text => return .ok text
    | .bytes content => return .ok (Text.Utf8.decode content)
    | value =>
      let name ← Exec.look fun heap => heap.className value
      return .error s!"expected str, bytes or os.PathLike object, not {name}"
  let line ← match value with
    | .string _ => single value
    | .bytes _ => single value
    | value =>
      match ← Exec.object? value with
      | some (.list elements) => single (elements[0]?.getD (.string ""))
      | some (.map entries) =>
        single ((entries.head?.map fun entry => entry.1.value).getD (.string ""))
      | some (.array elements _) =>
        let cause : RuntimeCause := .elementOutside (toString elements.size) elements.size
        pure (.error cause.message)
      | _ => do
        let name ← Exec.look fun heap => heap.className value
        pure (.error s!"'{name}' object is not iterable")
  match line with
  | .ok text =>
    if text.contains (Char.ofNat 0) then return .error "embedded null byte" else return .ok text
  | .error problem => return .error problem

def execute (captured : Bool) (command : Value) : Exec Value := do
  match ← commandLine command with
  | .error problem => sysResult (-1) "" problem
  | .ok line =>
    let executed ← Exec.world fun world =>
      world.services.shell world.workingDirectory world.environment world.disk line
    Exec.changeWorld fun world => { world with disk := executed.disk }
    if captured then
      sysResult executed.status (Text.Utf8.decode executed.output)
        (Text.Utf8.decode executed.errors)
    else
      sysResult executed.status "" ""

def envResult (ok : Bool) (value error : String) : Exec Value :=
  Exec.struct "EnvResult" [("ok", .bool ok), ("value", .string value), ("error", .string error)]

def sysGetEnv (name : Value) : Exec Value := do
  match name with
  | .string name =>
    match Bindings.get? name (← Exec.world World.environment) with
    | some value => envResult true value ""
    | none => envResult false "" s!"Variable '{name}' not found"
  | name =>
    let className ← Exec.look fun heap => heap.className name
    Exec.fault (.kind s!"str expected, not {className}")

def isVariableName (name : String) : Bool :=
  !name.isEmpty && !name.contains '=' && !name.contains (Char.ofNat 0)

def sysSetEnv (name value : Value) : Exec Value := do
  match name, value with
  | .string name, .string value =>
    if isVariableName name && !value.contains (Char.ofNat 0) then
      Exec.changeWorld fun world =>
        { world with environment := Bindings.put name value world.environment }
      return .bool true
    else
      return .bool false
  | _, _ => return .bool false

def sysGetCwd : Exec Value := do
  let world ← Exec.world id
  if world.disk.isDirectory world.workingDirectory then
    return .string (Disk.pathText world.workingDirectory)
  else
    Exec.fault (.missing "[Errno 2] No such file or directory")

def sysChDir (value : Value) : Exec Value := do
  match path? value with
  | none => return .bool false
  | some path =>
    match ← nodeAt path with
    | .ok (resolved, .directory) =>
      Exec.changeWorld fun world => { world with workingDirectory := resolved }
      return .bool true
    | _ => return .bool false

def sysExit (code : Value) : Exec Value :=
  throw (.exit code)

def argumentCount : Nat :=
  100

def sysArgv : Exec Value := do
  let arguments := (← Exec.world World.arguments).take argumentCount
  let filled := arguments ++ List.replicate (argumentCount - arguments.length) ""
  Exec.list (filled.map .string)

def sysSleep (value : Value) : Exec Value := do
  match ← duration "sleep length must be non-negative" value with
  | .error fault => Exec.fault fault
  | .ok milliseconds =>
    let waited := ((Number.truncate? milliseconds).getD 0).toNat
    Exec.changeWorld fun world => { world with clock := world.clock + waited }
    return .null

def system : List Builtin :=
  let named (name : String) (parameters : List String) (body : List Value → Exec Value) :=
    plain ("sys_" ++ name) ("sys_" ++ name) parameters body
  [named "exec" ["command"] (unary (execute false)),
    named "exec_output" ["command"] (unary (execute true)),
    named "getenv" ["name"] (unary sysGetEnv),
    named "setenv" ["name", "value"] (binary sysSetEnv),
    named "getcwd" [] (nullary sysGetCwd),
    named "chdir" ["path"] (unary sysChDir),
    named "exit" ["code"] (unary sysExit),
    named "argv" [] (nullary sysArgv),
    named "sleep" ["ms"] (unary sysSleep)]

end Noxy.Builtin
