import Noxy.Builtin.Files
import Noxy.Builtin.Strings
import Noxy.Number.Word

/-!
# Databases

Functions that open databases and execute statements in them.
-/

namespace Noxy.Builtin

open Noxy.Sql

def columnLimit : Nat :=
  32

def rowLimit : Nat :=
  100

def cellText : Cell → String × Nat
  | .null => ("", 0)
  | .int value => (toString value, 1)
  | .real value => (Number.shortestText value, 2)
  | .text value => (value, 3)
  | .blob value => (String.ofList (value.flatMap fun byte => Text.hexText 2 byte.toNat), 4)

def filledColumns (items : List α) (filler : α) : List α :=
  items.take columnLimit ++ List.replicate (columnLimit - items.length) filler

def rowStruct (cells : List Cell) : Exec Value := do
  let texts := cells.map cellText
  let values ← Exec.list (filledColumns (texts.map fun text => Value.string text.1) (.string ""))
  let types ← Exec.list (filledColumns (texts.map fun text => Value.int text.2) (.int 0))
  Exec.struct "Row" [("values", values), ("types", types)]

def queryResult (ok : Bool) (outcome : Outcome) (error : String) : Exec Value := do
  let rows ← (outcome.rows.take rowLimit).mapM rowStruct
  let empty ← rowStruct []
  let rowArray ← Exec.list (rows ++ List.replicate (rowLimit - rows.length) empty)
  let columns ← Exec.list (filledColumns (outcome.titles.map .string) (.string ""))
  Exec.struct "QueryResult" [("ok", .bool ok), ("rows", rowArray),
    ("row_count", .int rows.length), ("columns", columns),
    ("column_count", .int outcome.titles.length), ("error", .string error)]

def queryFailure (error : String) : Exec Value :=
  queryResult false ⟨-1, [], []⟩ error

def execResult (ok : Bool) (changed lastRow : Int) (error : String) : Exec Value :=
  Exec.struct "ExecResult" [("ok", .bool ok), ("rows_affected", .int changed),
    ("last_insert_id", .int lastRow), ("error", .string error)]

def openDatabase (path : String) : Exec (Option Nat) := do
  if path = ":memory:" ∨ path = "" then
    let (handle, engine) := (← Exec.world World.databases).openNew (some [])
    Exec.changeWorld fun world => { world with databases := engine }
    return some handle
  else
    let world ← Exec.world id
    let opened : Except DiskError (Nat × Disk) := do
      world.disk.openForWriting (← world.disk.resolve world.workingDirectory path)
    match opened with
    | .error _ => return none
    | .ok (content, disk) =>
      let isEmpty := (disk.content content).isEmpty
      let (handle, engine) := world.databases.openFile content isEmpty
      Exec.changeWorld fun world => { world with disk := disk, databases := engine }
      return some handle

def sqliteOpen (path : Value) : Exec Value := do
  let handle ← match path? path with
    | some path => openDatabase path
    | none => pure none
  Exec.struct "Database" [("handle", .int (handle.elim (-1) Int.ofNat)), ("path", path),
    ("open", .bool handle.isSome)]

def openDatabase? (database : Value) : Exec (Option Nat) := do
  handleIn? (← Exec.world World.databases).connections database "handle"

def openStatement? (statement : Value) : Exec (Option Nat) := do
  handleIn? (← Exec.world World.databases).statements statement "handle"

def filledHandle? (find : Value → Exec (Option Nat)) (value : Value) : Exec (Option Nat) := do
  let (_, handle) ← partOf value "handle"
  if ← Exec.look fun heap => isFilled heap handle then find value else return none

def sqliteClose (database : Value) : Exec Value := do
  if let some handle ← filledHandle? openDatabase? database then
    Exec.changeWorld fun world =>
      { world with databases.connections := world.databases.connections.close handle }
  return .null

def statementText (value : Value) : Exec (Except String String) := do
  match value with
  | .string text => return .ok text
  | .null => return .error "None"
  | value => return .error (← Exec.look fun heap => heap.className value)

def runStatement (handle : Nat) (text : Except String String)
    (parameters : Except SqlError (List Cell)) (supplied : Nat) :
    Exec (Except SqlError (Outcome × Int)) := do
  let result ← Exec.world fun world =>
    world.databases.run world.services.grammar handle text parameters supplied
  match result with
  | .error error => return .error error
  | .ok (outcome, lastRow, engine) =>
    Exec.changeWorld fun world => { world with databases := engine }
    return .ok (outcome, lastRow)

def reportExec (result : Except SqlError (Outcome × Int)) : Exec Value :=
  match result with
  | .ok (outcome, lastRow) => execResult true outcome.changed lastRow ""
  | .error error => execResult false 0 0 error.message

def reportQuery (result : Except SqlError (Outcome × Int)) : Exec Value :=
  match result with
  | .ok (outcome, _) => queryResult true outcome ""
  | .error error => queryFailure error.message

def sqliteExec (database text : Value) : Exec Value := do
  match ← openDatabase? database with
  | none => execResult false 0 0 "Database not open"
  | some handle => reportExec (← runStatement handle (← statementText text) (.ok []) 0)

def sqliteQuery (database text : Value) : Exec Value := do
  match ← openDatabase? database with
  | none => queryFailure "Database not open"
  | some handle => reportQuery (← runStatement handle (← statementText text) (.ok []) 0)

def statementStruct (handle : Int) (text : Value) (parameters : Nat) (ready : Bool) :
    Exec Value :=
  Exec.struct "Statement" [("handle", .int handle), ("sql", text),
    ("param_count", .int parameters), ("ready", .bool ready)]

def placeholders? (text : Value) : Exec (Option Nat) := do
  match text with
  | .string text => return some (text.toList.countP fun c => c = '?')
  | text =>
    match ← Exec.object? text with
    | some (.list elements) =>
      Exec.look fun heap => some (elements.toList.countP fun element =>
        heap.equal element (.string "?"))
    | _ => return none

def sqlitePrepare (database text : Value) : Exec Value := do
  match ← openDatabase? database with
  | none => statementStruct (-1) text 0 false
  | some connection =>
    match ← placeholders? text with
    | none => statementStruct (-1) text 0 false
    | some count =>
      let prepared : Prepared := ⟨connection, ← statementText text, []⟩
      let (handle, statements) := (← Exec.world World.databases).statements.add prepared
      Exec.changeWorld fun world => { world with databases.statements := statements }
      statementStruct handle text count true

def changeStatement (statement : Value) (change : Prepared → Exec Prepared) : Exec Value := do
  if let some handle ← filledHandle? openStatement? statement then
    if let some prepared := (← Exec.world World.databases).statements.get? handle then
      let prepared ← change prepared
      Exec.changeWorld fun world =>
        { world with
          databases.statements := world.databases.statements.update handle prepared }
  return .null

def sqliteBind (statement position value : Value) : Exec Value :=
  changeStatement statement fun prepared => do
    let key ← keyOf position
    return { prepared with parameters := Map.put key value prepared.parameters }

def sqliteReset (statement : Value) : Exec Value :=
  changeStatement statement fun prepared => return { prepared with parameters := [] }

def sqliteFinalize (statement : Value) : Exec Value := do
  if let some handle ← filledHandle? openStatement? statement then
    Exec.changeWorld fun world =>
      { world with databases.statements := world.databases.statements.close handle }
  return .null

def largest (heap : Heap) : Value → List Value → Except Failure Value
  | best, [] => .ok best
  | best, value :: rest => do
    let isLarger ← heap.compare .greater value best
    largest heap (if isLarger then value else best) rest

def reach (heap : Heap) (positions : List Value) : Except Failure Nat :=
  match positions with
  | [] => .ok 0
  | first :: rest => do
    let last ← largest heap first rest
    match last.int? with
    | some last => return last.toNat
    | none =>
      let _ ← heap.add last (.int 1)
      throw (.fault (.kind
        s!"'{heap.className last}' object cannot be interpreted as an integer"))

def cellOf (heap : Heap) (position : Nat) : Value → Except SqlError Cell
  | .null => .ok .null
  | .bool flag => .ok (.int (if flag then 1 else 0))
  | .int number => if Number.fitsWord number then .ok (.int number) else .error .tooLarge
  | .float number => .ok (.real number)
  | .nan _ => .ok .null
  | .string text => .ok (.text text)
  | .bytes content => .ok (.blob content)
  | value => .error (.binding position (heap.className value))

def step (handle : Nat) : Exec (Except SqlError (Outcome × Int)) := do
  match (← Exec.world World.databases).statements.get? handle with
  | none => return .error .closed
  | some prepared =>
    let positions := prepared.parameters.map fun entry => entry.1.value
    match ← Exec.look fun heap => reach heap positions with
    | .error failure => return .error (.positions failure.message)
    | .ok count =>
      let cells ← Exec.look fun heap => (List.range count).mapM fun position =>
        let value := (Map.get? (.int (position + 1 : Nat)) prepared.parameters).getD .null
        cellOf heap (position + 1) value
      runStatement prepared.connection prepared.text cells count

def sqliteStepExec (statement : Value) : Exec Value := do
  match ← openStatement? statement with
  | none => execResult false 0 0 "Statement not ready"
  | some handle => reportExec (← step handle)

def sqliteStepQuery (statement : Value) : Exec Value := do
  match ← openStatement? statement with
  | none => queryFailure "Statement not ready"
  | some handle => reportQuery (← step handle)

def transaction (text : String) (database : Value) : Exec Value := do
  match ← openDatabase? database with
  | none => return .bool false
  | some handle => return .bool (← runStatement handle (.ok text) (.ok []) 0).isOk

def sqliteTableExists (database name : Value) : Exec Value := do
  match ← openDatabase? database, name with
  | some handle, .string name =>
    Exec.world fun world => .bool (world.databases.hasTable handle name)
  | _, _ => return .bool false

def escaped (text : List Char) : List Char :=
  text.flatMap fun c => if c = '\'' then ['\'', '\''] else [c]

def sqliteEscape (value : Value) : Exec Value := do
  match value with
  | .string text => return ofChars (escaped text.toList)
  | value => return .string (← Exec.view fun heap => heap.plain value)

def databases : List Builtin :=
  let named (name : String) (parameters : List String) (body : List Value → Exec Value) :=
    plain ("sqlite_" ++ name) ("sqlite_" ++ name) parameters body
  [named "open" ["path"] (unary sqliteOpen),
    named "close" ["db"] (unary sqliteClose),
    named "exec" ["db", "sql"] (binary sqliteExec),
    named "query" ["db", "sql"] (binary sqliteQuery),
    named "prepare" ["db", "sql"] (binary sqlitePrepare),
    named "bind_int" ["stmt", "pos", "val"] (ternary sqliteBind),
    named "bind_float" ["stmt", "pos", "val"] (ternary sqliteBind),
    named "bind_text" ["stmt", "pos", "val"] (ternary sqliteBind),
    named "bind_null" ["stmt", "pos"] (binary fun statement position =>
      sqliteBind statement position .null),
    named "step_exec" ["stmt"] (unary sqliteStepExec),
    named "step_query" ["stmt"] (unary sqliteStepQuery),
    named "reset" ["stmt"] (unary sqliteReset),
    named "finalize" ["stmt"] (unary sqliteFinalize),
    named "begin" ["db"] (unary (transaction "BEGIN")),
    named "commit" ["db"] (unary (transaction "COMMIT")),
    named "rollback" ["db"] (unary (transaction "ROLLBACK")),
    named "table_exists" ["db", "name"] (binary sqliteTableExists),
    named "escape" ["val"] (unary sqliteEscape)]

end Noxy.Builtin
