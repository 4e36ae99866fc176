import Noxy.Heap
import Noxy.Number.Digits
import Noxy.Sql.Statement
import Noxy.World.Handles

/-!
# Databases

A database is a list of tables, and a connection to it remembers the number of the row it inserted
last and, during a transaction, the tables as they were at its start.
-/

namespace Noxy.Sql

structure Table where
  name : String
  columns : List Column
  rows : List (Int × List Cell)

structure Connection where
  database : Nat
  lastRow : Int
  saved : Option (List Table)

/-- A statement with the values bound to its parameters, by their positions from 1.  In place of a
text there may be the class of a value that is none. -/
structure Prepared where
  connection : Nat
  text : Except String String
  parameters : List (Key × Value)

/-- All databases, the connections to them and the prepared statements.  Databases in files are
found by the number of the file's contents; a file may hold something else than a database. -/
structure Engine where
  databases : Array (Option (List Table))
  files : List (Nat × Nat)
  connections : Handles Connection
  statements : Handles Prepared

inductive SqlError where
  | grammar (error : SyntaxError)
  | tableExists (name : String)
  | noTable (name : String)
  | noColumn (table column : String)
  | valueCount (table : String) (columns values : Nat)
  | listCount (values columns : Nat)
  | bindingCount (used supplied : Nat)
  | binding (position : Nat) (className : String)
  | tooLarge
  | duplicate (table column : String)
  | datatype
  | nested
  | noTransaction (statement : String)
  | closed
  | notStatement (className : String)
  | notDatabase
  | positions (text : String)

def SqlError.message : SqlError → String
  | grammar error => error.message
  | tableExists name => s!"table {name} already exists"
  | noTable name => s!"no such table: {name}"
  | noColumn table column => s!"table {table} has no column named {column}"
  | valueCount table columns values =>
    s!"table {table} has {columns} columns but {values} values were supplied"
  | listCount values columns => s!"{values} values for {columns} columns"
  | bindingCount used supplied =>
    s!"Incorrect number of bindings supplied. The current statement uses {used}, " ++
      s!"and there are {supplied} supplied."
  | binding place className =>
    s!"Error binding parameter {place}: type '{className}' is not supported"
  | tooLarge => "Python int too large to convert to SQLite INTEGER"
  | duplicate table column => s!"UNIQUE constraint failed: {table}.{column}"
  | datatype => "datatype mismatch"
  | nested => "cannot start a transaction within a transaction"
  | noTransaction statement => s!"cannot {statement} - no transaction is active"
  | closed => "Cannot operate on a closed database."
  | notStatement className => s!"execute() argument 1 must be str, not {className}"
  | notDatabase => "file is not a database"
  | positions text => text

/-- What a statement gives: the number of changed rows, where it changes rows, and a table of cells
with titles. -/
structure Outcome where
  changed : Int
  titles : List String
  rows : List (List Cell)

def Engine.empty : Engine :=
  ⟨#[], [], .startingAt 1, .startingAt 1⟩

def realText (value : Float) : String :=
  match Number.parts value with
  | .nan => ""
  | .infinite negative => if negative then "-Inf" else "Inf"
  | .finite negative mantissa exponent =>
    let sign := if negative then "-" else ""
    if mantissa = 0 then
      sign ++ "0.0"
    else
      let digits := (Number.magnitude mantissa exponent).significant 15
      let text :=
        if digits.point < -3 ∨ 15 < digits.point then digits.scientific 1 true
        else digits.positional 1 true
      sign ++ String.ofList text

def numberOfText? (text : String) : Option Cell :=
  let trimmed := text.toList.dropWhile Char.isWhitespace
  let trimmed := (trimmed.reverse.dropWhile Char.isWhitespace).reverse
  let (negative, digits) := Number.splitSign trimmed
  if digits.isEmpty || numberText digits ≠ digits then none
  else some (numberCell negative (String.ofList digits))

def Affinity.store (affinity : Affinity) (cell : Cell) : Cell :=
  match affinity, cell with
  | .text, .int value => .text (toString value)
  | .text, .real value => .text (realText value)
  | .real, .int value => .real ((Number.ofInt? value).getD 0)
  | .real, .text value =>
    match numberOfText? value with
    | some (.int number) => .real ((Number.ofInt? number).getD 0)
    | some number => number
    | none => cell
  | .integer, .text value | .numeric, .text value =>
    match numberOfText? value with
    | some (.real number) =>
      match Number.wholeValue? number with
      | some whole => .int whole
      | none => .real number
    | some number => number
    | none => cell
  | .integer, .real value | .numeric, .real value =>
    match Number.wholeValue? value with
    | some whole => .int whole
    | none => cell
  | _, cell => cell

def table? (tables : List Table) (name : String) : Option Table :=
  tables.find? fun table => table.name.toLower = name.toLower

def table (tables : List Table) (name : String) : Except SqlError Table :=
  (table? tables name).elim (.error (.noTable name)) .ok

def putTable (tables : List Table) (changed : Table) : List Table :=
  tables.map fun table => if table.name = changed.name then changed else table

def nextRow (table : Table) : Int :=
  table.rows.foldl (fun next row => max next (row.1 + 1)) 1

def Statement.parameterCount : Statement → Nat
  | insert _ _ values => values.foldr (fun term count => term.parameters + count) 0
  | select columns => columns.foldr (fun column count => column.1.parameters + count) 0
  | _ => 0

def Term.cell (parameters : List Cell) : Term → Cell
  | literal cell => cell
  | parameter number => parameters.getD number .null

def Statement.check (tables : List Table) : Statement → Except SqlError Unit
  | createTable name unlessThere _ =>
    if (table? tables name).isSome && !unlessThere then .error (.tableExists name) else .ok ()
  | insert name titles values => do
    let table ← table tables name
    for title in titles do
      unless table.columns.any fun column => column.name.toLower = title.toLower do
        throw (.noColumn name title)
    if titles.isEmpty then
      if values.length ≠ table.columns.length then
        throw (.valueCount name table.columns.length values.length)
    else if values.length ≠ titles.length then
      throw (.listCount values.length titles.length)
  | deleteAll name => (table tables name).map fun _ => ()
  | selectAll name => (table tables name).map fun _ => ()
  | _ => .ok ()

def newCell (titles : List String) (cells : List Cell) (position : Nat) (column : Column) : Cell :=
  if titles.isEmpty then
    column.affinity.store (cells.getD position .null)
  else
    match titles.findIdx? fun title => title.toLower = column.name.toLower with
    | some position => column.affinity.store (cells.getD position .null)
    | none => .null

def insertRow (table : Table) (titles : List String) (cells : List Cell) :
    Except SqlError (Int × Table) := do
  let row := table.columns.zipIdx.map fun (column, position) => newCell titles cells position column
  match table.columns.findIdx? Column.isKey with
  | none =>
    let number := nextRow table
    return (number, { table with rows := table.rows ++ [(number, row)] })
  | some key =>
    match row.getD key .null with
    | .null =>
      let number := nextRow table
      let row := row.set key (.int number)
      return (number, { table with rows := table.rows ++ [(number, row)] })
    | .int number =>
      if table.rows.any fun other => other.1 = number then
        throw (.duplicate table.name ((table.columns.map Column.name).getD key ""))
      else
        let (before, after) := table.rows.partition fun other => other.1 < number
        return (number, { table with rows := before ++ (number, row) :: after })
    | _ => throw .datatype

def Statement.execute (statement : Statement) (parameters : List Cell) (connection : Connection)
    (tables : List Table) : Except SqlError (Outcome × Connection × List Table) :=
  match statement with
  | createTable name _ columns =>
    if (table? tables name).isSome then
      .ok (⟨-1, [], []⟩, connection, tables)
    else
      .ok (⟨-1, [], []⟩, connection, tables ++ [⟨name, columns, []⟩])
  | insert name titles values => do
    let table ← table tables name
    let (number, table) ← insertRow table titles (values.map (Term.cell parameters))
    return (⟨1, [], []⟩, { connection with lastRow := number }, putTable tables table)
  | deleteAll name => do
    let table ← table tables name
    let changed : Int := table.rows.length
    return (⟨changed, [], []⟩, connection, putTable tables { table with rows := [] })
  | selectAll name => do
    let table ← table tables name
    let titles := table.columns.map Column.name
    return (⟨-1, titles, table.rows.map Prod.snd⟩, connection, tables)
  | select columns =>
    let row := columns.map fun column => column.1.cell parameters
    .ok (⟨-1, columns.map Prod.snd, [row]⟩, connection, tables)
  | begin =>
    if connection.saved.isSome then .error .nested
    else .ok (⟨-1, [], []⟩, { connection with saved := some tables }, tables)
  | commit =>
    if connection.saved.isSome then
      .ok (⟨-1, [], []⟩, { connection with saved := none }, tables)
    else
      .error (.noTransaction "commit")
  | rollback =>
    match connection.saved with
    | some tables => .ok (⟨-1, [], []⟩, { connection with saved := none }, tables)
    | none => .error (.noTransaction "rollback")
  | nothing => .ok (⟨-1, [], []⟩, connection, tables)

namespace Engine

def tables? (engine : Engine) (database : Nat) : Option (List Table) :=
  (engine.databases[database]?).join

def openNew (engine : Engine) (tables : Option (List Table)) : Nat × Engine :=
  let (handle, connections) := engine.connections.add ⟨engine.databases.size, 0, none⟩
  (handle, { engine with databases := engine.databases.push tables, connections := connections })

def openFile (engine : Engine) (content : Nat) (isEmpty : Bool) : Nat × Engine :=
  match engine.files.lookup content with
  | some database =>
    let (handle, connections) := engine.connections.add ⟨database, 0, none⟩
    (handle, { engine with connections := connections })
  | none =>
    let files := (content, engine.databases.size) :: engine.files
    openNew { engine with files := files } (if isEmpty then some [] else none)

def run (grammar : String → Except SyntaxError Statement) (engine : Engine) (handle : Nat)
    (text : Except String String) (parameters : Except SqlError (List Cell)) (supplied : Nat) :
    Except SqlError (Outcome × Int × Engine) :=
  match engine.connections.get? handle, text with
  | none, _ => .error .closed
  | some _, .error className => .error (.notStatement className)
  | some connection, .ok text => do
    let statement ← (grammar text).mapError .grammar
    match engine.tables? connection.database with
    | none => throw .notDatabase
    | some tables =>
      statement.check tables
      if statement.parameterCount ≠ supplied then
        throw (.bindingCount statement.parameterCount supplied)
      let parameters ← parameters
      let (outcome, connection, tables) ← statement.execute parameters connection tables
      return (outcome, connection.lastRow,
        { engine with
          databases := engine.databases.setIfInBounds connection.database (some tables)
          connections := engine.connections.update handle connection })

def hasTable (engine : Engine) (handle : Nat) (name : String) : Bool :=
  match (engine.connections.get? handle).bind fun connection =>
      engine.tables? connection.database with
  | some tables => tables.any fun table => table.name = name
  | none => false

end Engine

end Noxy.Sql
