import Noxy.Builtin.Duration
import Noxy.Number.Word

/-!
# Sockets

Sockets connect a program to others, as far as the network does; none is ever said to be ready.
-/

namespace Noxy.Builtin

def socketStruct (handle : Int) (host port : Value) (isOpen : Bool) : Exec Value :=
  Exec.struct "Socket" [("fd", .int handle), ("addr", host), ("port", port),
    ("open", .bool isOpen)]

/-- What is done with the answer of the network to a request. -/
def asking (request : Network → Nat → Except String α) (answered : α → Exec Value)
    (refused : String → Exec Value) : Exec Value := do
  let answer ← Exec.world fun world => request world.services.network world.requests
  Exec.changeWorld fun world => { world with requests := world.requests + 1 }
  match answer with
  | .ok answer => answered answer
  | .error problem => refused problem

def newSocket (host port : Value) : Exec Value := do
  let (handle, sockets) := (← Exec.world World.sockets).add ⟨true⟩
  Exec.changeWorld fun world => { world with sockets := sockets }
  socketStruct handle host port true

def address? (host port : Value) : Option (String × Nat) :=
  match host, port.int? with
  | .string host, some port => if 0 ≤ port ∧ port ≤ 65535 then some (host, port.toNat) else none
  | _, _ => none

/-- A socket at an address, if the network allows it there, and a closed one otherwise. -/
def netOpen (request : Network → Nat → String → Nat → Except String Unit) (host port : Value) :
    Exec Value :=
  match address? host port with
  | none => socketStruct (-1) host port false
  | some (name, number) =>
    asking (fun network moment => request network moment name number)
      (fun _ => newSocket host port) fun _ => socketStruct (-1) host port false

def openSocket? (socket : Value) : Exec (Option Nat) := do
  handleIn? (← Exec.world World.sockets) socket "fd"

def netAccept (socket : Value) : Exec Value := do
  match ← openSocket? socket with
  | none => Exec.fail .closedSocket
  | some handle =>
    asking (fun network moment => network.accepts moment handle)
      (fun (host, port) => newSocket (.string host) (.int port))
      fun problem => Exec.fail (.acceptFailed problem)

def netResult (ok : Bool) (data : List UInt8) (countName : String) (count : Nat)
    (error : String) : Exec Value :=
  Exec.struct "NetResult" [("ok", .bool ok), ("data", .bytes data), (countName, .int count),
    ("error", .string error)]

def netFailure (error : String) (countName : String := "count") : Exec Value :=
  netResult false [] countName 0 error

def netReceive (socket size : Value) : Exec Value := do
  match ← openSocket? socket with
  | none => netFailure "Socket fechado"
  | some handle =>
    match size.int? with
    | none =>
      let name ← Exec.look fun heap => heap.className size
      netFailure s!"'{name}' object cannot be interpreted as an integer"
    | some size =>
      if !Number.fitsWord size then
        netFailure "Python int too large to convert to C ssize_t"
      else if size < 0 then
        netFailure "negative buffersize in recv"
      else
        asking (fun network moment => network.receives moment handle size.toNat)
          (fun data => netResult true data "count" data.length "") netFailure

def sent? : Value → Option (List UInt8)
  | .string text => some (Text.Utf8.encode text)
  | .bytes data => some data
  | _ => none

def netSend (socket data : Value) : Exec Value := do
  match ← openSocket? socket with
  | none => netFailure "Socket fechado" "bytes"
  | some handle =>
    match sent? data with
    | none => netFailure "Tipo de dados inválido para envio"
    | some data =>
      asking (fun network moment => network.sends moment handle data)
        (fun count => netResult true [] "count" count "") netFailure

def netClose (socket : Value) : Exec Value := do
  let (_, handle) ← partOf socket "fd"
  let (_, isOpen) ← partOf socket "open"
  if ← Exec.look fun heap => isFilled heap isOpen then
    let isMap ← Exec.look fun heap =>
      match heap.object? socket with
      | some (.map _) => true
      | _ => false
    let sockets ← Exec.world World.sockets
    let closing ← openHandle? sockets handle
    if let some number := closing then
      Exec.changeWorld fun world => { world with sockets := world.sockets.close number }
    if isMap then
      Exec.fault (.part "'dict' object has no attribute 'fields'")
    else if closing.isSome then
      setPart socket "open" (.bool false)
  return .null

def netSetBlocking (socket blocking : Value) : Exec Value := do
  if let some handle ← openSocket? socket then
    let flag ← Exec.look fun heap => isFilled heap blocking
    Exec.changeWorld fun world => { world with sockets := world.sockets.update handle ⟨flag⟩ }
  return .null

def socketSetSize : Nat :=
  64

def emptySocket : Exec Value :=
  socketStruct (-1) (.string "") (.int 0) false

def netSocketSet : Exec Value := do
  let sockets ← (List.range socketSetSize).mapM fun _ => emptySocket
  Exec.list sockets

def checkSockets (array : Value) : Exec Unit := do
  match ← elements? array with
  | none => pure ()
  | some elements =>
    let sockets ← Exec.world World.sockets
    elements.toList.forM fun socket => do
      let _ ← handleIn? sockets socket "fd"

def selectResult (reading writing failing : Value) : Exec Value :=
  Exec.struct "SelectResult" [("read", reading), ("read_count", .int 0), ("write", writing),
    ("write_count", .int 0), ("error", failing), ("error_count", .int 0)]

def emptySockets : Exec Value := do
  let socket ← emptySocket
  Exec.list (List.replicate socketSetSize socket)

def netSelect (reading writing failing timeout : Value) : Exec Value := do
  checkSockets reading
  checkSockets writing
  checkSockets failing
  match ← duration "timeout must be non-negative" timeout with
  | .ok _ =>
    let reading ← emptySockets
    let writing ← emptySockets
    let failing ← emptySockets
    selectResult reading writing failing
  | .error fault =>
    Exec.write (s!"Select error: {fault.text}" ++ "\n")
    let sockets ← netSocketSet
    selectResult sockets sockets sockets

def net : List Builtin :=
  let named (name : String) (parameters : List String) (body : List Value → Exec Value) :=
    plain ("net_" ++ name) ("net_" ++ name) parameters body
  [named "listen" ["host", "port"] (binary (netOpen Network.listens)),
    named "accept" ["server_sock"] (unary netAccept),
    named "connect" ["host", "port"] (binary (netOpen Network.connects)),
    ⟨"net_recv", "net_recv", ["sock", "buf_size"], some 1, fun
      | [socket] => netReceive socket (.int 4096)
      | [socket, size] => netReceive socket size
      | _ => pure .null⟩,
    named "send" ["sock", "data"] (binary netSend),
    named "close" ["sock"] (unary netClose),
    named "setblocking" ["sock", "blocking"] (binary netSetBlocking),
    named "select" ["read_list", "write_list", "error_list", "timeout"] (fun
      | [reading, writing, failing, timeout] => netSelect reading writing failing timeout
      | _ => pure .null),
    named "socket_set" [] (nullary netSocketSet)]

end Noxy.Builtin
