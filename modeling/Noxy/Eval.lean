import Noxy.Builtin.Table
import Noxy.Heap.Access
import Noxy.Modules
import Noxy.Program.Parser

/-!
# Evaluation

How expressions are evaluated, statements executed and modules loaded.
-/

namespace Noxy

def standardFuel : Nat :=
  1000000000000000

namespace Exec

def exhausted : Exec α :=
  throw (.failure .exhausted)

def binding (name : String) : Exec Variable := do
  let machine ← get
  match machine.scopes.binding? machine.current name with
  | some binding => return binding
  | none => fail (.undefinedVariable name)

def define (scope : Nat) (name : String) (binding : Variable) : Exec Unit :=
  modify fun machine => { machine with scopes := machine.scopes.define scope name binding }

def defineHere (name : String) (type : Ty) (value : Value) : Exec Unit :=
  modify fun machine =>
    { machine with scopes := machine.scopes.define machine.current name ⟨type, value, false⟩ }

def assign (name : String) (value : Value) : Exec Unit := do
  let owner? := (fun machine : Machine => machine.scopes.owner? machine.current name) (← get)
  match owner? with
  | some owner =>
    modify fun machine => { machine with scopes := machine.scopes.assignIn owner name value }
  | none => fail (.undefinedVariable name)

def defineFunction (scope : Nat) (function : Function) : Exec Unit :=
  modify fun machine => { machine with scopes := machine.scopes.defineFunction scope function }

def defineStruct (scope : Nat) (struct : Struct) : Exec Unit :=
  modify fun machine => { machine with scopes := machine.scopes.defineStruct scope struct }

@[inline]
def inScope (outer : Nat) (body : Exec α) : Exec α := fun machine =>
  let previous := machine.current
  let count := machine.scopes.scopes.size
  let machine :=
    { machine with scopes := (machine.scopes.child outer).2, current := count }
  match body machine with
  | .ok value machine =>
    .ok value { machine with scopes := machine.scopes.shrink count, current := previous }
  | .error signal machine =>
    .error signal { machine with scopes := machine.scopes.shrink count, current := previous }

@[inline]
def asCall (body : Exec Unit) : Exec Value := fun machine =>
  match body machine with
  | .ok () machine => .ok .null machine
  | .error (.returning value) machine => .ok value machine
  | .error signal machine => .error signal machine

def truth (value : Value) : Exec Bool :=
  view fun heap => heap.isTrue value

end Exec

inductive Callable where
  | struct (struct : Struct)
  | function (function : Function)
  | builtin (builtin : Builtin)

def Machine.callable? (machine : Machine) (name : String) : Option Callable :=
  match machine.scopes.struct? machine.current name with
  | some struct => some (.struct struct)
  | none =>
    match machine.scopes.function? machine.current name with
    | some function => some (.function function)
    | none => (Builtin.find? name).map .builtin

/-- The values whose methods are builtin functions: how messages name the family, what the names of
the functions start with, and whether the value itself is the first argument. -/
structure Receiver where
  family : String
  start : String
  isPassed : Bool

def Heap.receiver? (heap : Heap) (value : Value) : Option Receiver :=
  match heap.object? value with
  | some (.struct "IO" _) => some ⟨"IO", "io_", false⟩
  | some (.struct "Net" _) => some ⟨"Net", "net_", false⟩
  | some (.struct "Sqlite" _) => some ⟨"Sqlite", "sqlite_", false⟩
  | some (.struct "Strings" _) => some ⟨"Strings", "strings_", false⟩
  | some (.list _) => some ⟨"Array", "", true⟩
  | some (.array _ _) => some ⟨"Array", "", true⟩
  | some (.map _) => some ⟨"Map", "", true⟩
  | _ => none

def Machine.struct? (machine : Machine) (name : String) : Option Struct :=
  match machine.scopes.struct? machine.current name with
  | some struct => some struct
  | none => machine.scopes.struct? 0 name

def fieldsOf (fields : List Declared) (values : List Value) : List (String × Value) :=
  (fields.zip values).foldl (fun done (field, value) => Bindings.put field.name value done) []

mutual

def defaultValue : Nat → Ty → Exec Value
  | 0, _ => Exec.exhausted
  | fuel + 1, type =>
    match type with
    | .int => pure (.int 0)
    | .float => pure (.float 0)
    | .string => pure (.string "")
    | .bool => pure (.bool false)
    | .bytes => pure (.bytes [])
    | .array element (some size) => do
      let values ← defaultValues fuel (List.replicate size element)
      Exec.alloc (.array values.toArray element)
    | .array _ none => Exec.list []
    | .struct name _ => do
      match (← get).struct? name with
      | none => Exec.fail (.noDefault name)
      | some struct =>
        let values ← defaultValues fuel (struct.fields.map Declared.type)
        Exec.struct name (fieldsOf struct.fields values)
    | .map _ _ => Exec.alloc (.map [])
    | _ => pure .null

def defaultValues : Nat → List Ty → Exec (List Value)
  | 0, _ => Exec.exhausted
  | _ + 1, [] => pure []
  | fuel + 1, type :: rest => do
    let value ← defaultValue fuel type
    let values ← defaultValues fuel rest
    return value :: values

end

def passed (type : Ty) (value : Value) : Exec Value := do
  match type with
  | .struct _ _ => Exec.deepCopy value
  | .array _ _ =>
    match ← Exec.object? value with
    | some (.list _) => Exec.deepCopy value
    | _ => return value
  | _ => return value

def checkKey (key : Value) : Exec Unit := do
  match ← Exec.object? key with
  | some (.list _) => Exec.fail .mutableKey
  | some (.array _ _) => Exec.fail .mutableKey
  | some (.map _) => Exec.fail .mutableKey
  | _ => pure ()

def bindAll : List (Declared × Value) → Exec Unit
  | [] => pure ()
  | (param, value) :: rest => do
    Exec.defineHere param.name param.type value
    bindAll rest

def setMember (module : Value) (name : String) (value : Value) : Exec Unit :=
  match module with
  | .object address => Exec.apply ⟨address, Object.mapMembers (Bindings.put name value)⟩
  | _ => pure ()

def importMember (name : String) (value : Value) : Exec Unit := do
  match value with
  | .function function => Exec.defineFunction 0 function
  | .struct struct => Exec.defineStruct 0 struct
  | value =>
    match ← Exec.object? value with
    | some (.module moduleName _) => Exec.define 0 name ⟨.imported moduleName 0, value, true⟩
    | _ => Exec.define 0 name ⟨.void, value, true⟩

def importSelection (selection : Selection) (newName : Option String) (location : Location)
    (module : Value) : Exec Unit := do
  match ← Exec.object? module with
  | some (.module moduleName members) =>
    match selection with
    | .whole => Exec.define 0 (newName.getD moduleName) ⟨.imported moduleName 0, module, true⟩
    | .all => members.forM fun (name, value) => importMember name value
    | .names names =>
      names.forM fun name =>
        match Bindings.get? name members with
        | some value => importMember name value
        | none =>
          throw (.failure (.error (.runtime (.symbolNotFound name moduleName)
            (some location))))
  | _ => pure ()

def defineMembers (scope : Nat) (module : Option Value) : List Stmt → Exec Unit
  | [] => pure ()
  | stmt :: rest => do
    match stmt.function?, stmt.struct? with
    | some function, _ =>
      Exec.defineFunction scope function
      module.forM fun module => setMember module function.name (.function function)
    | none, some struct =>
      Exec.defineStruct scope struct
      module.forM fun module => setMember module struct.name (.struct struct)
    | none, none => pure ()
    defineMembers scope module rest

def readModule (path : String) (content : Nat) : Exec Program := do
  let disk ← Exec.world World.disk
  match Modules.sourceText disk content with
  | .error error => Exec.fault (.encoding error.message)
  | .ok source => Exec.ofExcept (Program.parse source path)

mutual

def eval : Nat → Expr → Exec Value
  | 0, _ => Exec.exhausted
  | fuel + 1, expr =>
    match expr with
    | .int value _ => pure (.int value)
    | .float value _ => pure (.float value)
    | .string value _ => pure (.string value)
    | .bytes value _ => pure (.bytes value)
    | .bool value _ => pure (.bool value)
    | .null _ => pure .null
    | .identifier name _ => do return (← Exec.binding name).value
    | .binary left operator right _ => evalBinary fuel operator left right
    | .unary .negate operand _ => do
      let value ← eval fuel operand
      Exec.make (← Exec.view fun heap => heap.negate value)
    | .unary .invert operand _ => do
      let value ← eval fuel operand
      return .bool (!(← Exec.truth value))
    | .call callee arguments _ => evalCall fuel callee arguments
    | .index object index _ => do
      let object ← eval fuel object
      let index ← eval fuel index
      Exec.view fun heap => heap.indexed object index
    | .field object name _ => do
      let object ← eval fuel object
      Exec.view fun heap => heap.selected object name
    | .array elements _ => do
      let values ← evalAll fuel elements
      Exec.list values
    | .map entries _ => do
      let entries ← evalEntries fuel entries []
      Exec.alloc (.map entries)
    | .ref value _ => evalRef fuel value
    | .template parts _ => do
      let texts ← evalParts fuel parts
      return .string (String.join texts)
    | .zeros size _ => do
      let size ← eval fuel size
      match size.int? with
      | some size => do
        Exec.alloc (← Exec.ofExcept (Heap.zeros size))
      | none => Exec.fail .zerosSize
    | .group inner _ => eval fuel inner

def evalBinary : Nat → BinaryOperator → Expr → Expr → Exec Value
  | 0, _, _, _ => Exec.exhausted
  | fuel + 1, operator, left, right => do
    let leftValue ← eval fuel left
    match operator with
    | .and =>
      if ← Exec.truth leftValue then
        let rightValue ← eval fuel right
        return .bool (← Exec.truth rightValue)
      else
        return .bool false
    | .or =>
      if ← Exec.truth leftValue then
        return .bool true
      else
        let rightValue ← eval fuel right
        return .bool (← Exec.truth rightValue)
    | operator =>
      let rightValue ← eval fuel right
      Exec.make (← Exec.view fun heap => heap.binary operator leftValue rightValue)

def evalAll : Nat → List Expr → Exec (List Value)
  | 0, _ => Exec.exhausted
  | _ + 1, [] => pure []
  | fuel + 1, expr :: rest => do
    let value ← eval fuel expr
    let values ← evalAll fuel rest
    return value :: values

def evalEntries : Nat → List (Expr × Expr) → List (Key × Value) → Exec (List (Key × Value))
  | 0, _, _ => Exec.exhausted
  | _ + 1, [], done => pure done
  | fuel + 1, (key, value) :: rest, done => do
    let key ← eval fuel key
    let value ← eval fuel value
    checkKey key
    let key ← Builtin.keyOf key
    evalEntries fuel rest (Map.put key value done)

def evalParts : Nat → List TemplatePart → Exec (List String)
  | 0, _ => Exec.exhausted
  | _ + 1, [] => pure []
  | fuel + 1, .text content :: rest => do
    let texts ← evalParts fuel rest
    return content :: texts
  | fuel + 1, .interpolation expr format :: rest => do
    let value ← eval fuel expr
    let text ← Exec.view fun heap => heap.formatted value format
    let texts ← evalParts fuel rest
    return text :: texts

def evalRef : Nat → Expr → Exec Value
  | 0, _ => Exec.exhausted
  | fuel + 1, expr =>
    match expr with
    | .identifier name _ => do
      let binding ← Exec.binding name
      Exec.alloc (.ref (.value binding.value))
    | .field object name _ => do
      let object ← eval fuel object
      let object ← Exec.view fun heap => heap.dereference object
      Exec.alloc (.ref (Heap.targetOfPart object (.field object name)))
    | .index object index _ => do
      let index ← eval fuel index
      let object ← eval fuel object
      let isMap ← Exec.look fun heap => heap.isMap object
      let target := if isMap then Target.key object index else .index object index
      Exec.alloc (.ref (Heap.targetOfPart object target))
    | expr => do
      let value ← eval fuel expr
      Exec.alloc (.ref (.value value))

def evalCall : Nat → Expr → List Expr → Exec Value
  | 0, _, _ => Exec.exhausted
  | fuel + 1, callee, arguments =>
    match callee with
    | .identifier name _ => do
      match (← get).callable? name with
      | some (.struct struct) => construct fuel struct arguments
      | some (.function function) => callFunction fuel function arguments
      | some (.builtin builtin) =>
        let values ← evalAll fuel arguments
        builtin.call values
      | none => Exec.fail (.undefinedFunction name)
    | .field object name _ => do
      let object ← eval fuel object
      match ← Exec.look fun heap => heap.receiver? object with
      | some receiver =>
        match Builtin.find? (receiver.start ++ name) with
        | some builtin =>
          let values ← evalAll fuel arguments
          builtin.call (if receiver.isPassed then object :: values else values)
        | none => Exec.fail (.unsupportedMethod receiver.family name)
      | none => callValue fuel callee arguments
    | callee => callValue fuel callee arguments

def callValue : Nat → Expr → List Expr → Exec Value
  | 0, _, _ => Exec.exhausted
  | fuel + 1, callee, arguments => do
    let value ← eval fuel callee
    match value with
    | .function function => callFunction fuel function arguments
    | .struct struct => construct fuel struct arguments
    | value => Exec.fail (.notCallable (← Exec.look fun heap => heap.fullClassName value))

def construct : Nat → Struct → List Expr → Exec Value
  | 0, _, _ => Exec.exhausted
  | fuel + 1, struct, arguments => do
    if arguments.length ≠ struct.fields.length then
      Exec.fail (.constructorArity struct.name struct.fields.length arguments.length)
    else
      let values ← evalAll fuel arguments
      Exec.struct struct.name (fieldsOf struct.fields values)

def callFunction : Nat → Function → List Expr → Exec Value
  | 0, _, _ => Exec.exhausted
  | fuel + 1, function, arguments => do
    if arguments.length ≠ function.params.length then
      Exec.fail (.functionArity function.name function.params.length arguments.length)
    else
      let values ← evalArguments fuel (function.params.zip arguments)
      Exec.asCall (Exec.inScope 0 (do
        bindAll (function.params.zip values)
        execAll fuel function.body))

def evalArguments : Nat → List (Declared × Expr) → Exec (List Value)
  | 0, _ => Exec.exhausted
  | _ + 1, [] => pure []
  | fuel + 1, (param, argument) :: rest => do
    let value ← eval fuel argument
    let value ← passed param.type value
    let values ← evalArguments fuel rest
    return value :: values

def exec : Nat → Stmt → Exec Unit
  | 0, _ => Exec.exhausted
  | fuel + 1, stmt =>
    match stmt with
    | .letVar name type (some initializer) _ => do
      let value ← eval fuel initializer
      Exec.defineHere name type value
    | .letVar name type none _ => do
      let value ← defaultValue fuel type
      Exec.defineHere name type value
    | .globalVar name type initializer _ => do
      let value ← eval fuel initializer
      Exec.define 0 name ⟨type, value, true⟩
    | .assign target value _ => do
      let value ← eval fuel value
      assignTarget fuel target value
    | .expression expr _ => do
      let _ ← eval fuel expr
    | .branch condition thenBody elseBody _ => do
      let value ← eval fuel condition
      if ← Exec.truth value then execBlock fuel thenBody else execBlock fuel elseBody
    | .loop condition body _ => execLoop fuel condition body
    | .returning (some value) _ => do
      let value ← eval fuel value
      throw (.returning value)
    | .returning none _ => throw (.returning .null)
    | .breaking _ => throw .breaking
    | .function _ _ _ _ _ => pure ()
    | .struct _ _ _ => pure ()
    | .use path selection newName location => execUse fuel path selection newName location

def execAll : Nat → List Stmt → Exec Unit
  | 0, _ => Exec.exhausted
  | _ + 1, [] => pure ()
  | fuel + 1, stmt :: rest => do
    exec fuel stmt
    execAll fuel rest

def execBlock : Nat → List Stmt → Exec Unit
  | 0, _ => Exec.exhausted
  | fuel + 1, stmts => do
    let current := (← get).current
    Exec.inScope current (execAll fuel stmts)

def execLoop : Nat → Expr → List Stmt → Exec Unit
  | 0, _, _ => Exec.exhausted
  | fuel + 1, condition, body => fun machine =>
    match eval fuel condition machine with
    | .error .breaking machine => .ok () machine
    | .error signal machine => .error signal machine
    | .ok value machine =>
      match Exec.truth value machine with
      | .error signal machine => .error signal machine
      | .ok false machine => .ok () machine
      | .ok true machine =>
        match execBlock fuel body machine with
        | .error .breaking machine => .ok () machine
        | .error signal machine => .error signal machine
        | .ok () machine => execLoop fuel condition body machine

def assignTarget : Nat → Expr → Value → Exec Unit
  | 0, _, _ => Exec.exhausted
  | fuel + 1, target, value =>
    match target with
    | .identifier name _ => Exec.assign name value
    | .index object index _ => do
      let object ← eval fuel object
      let index ← eval fuel index
      Exec.apply (← Exec.view fun heap => heap.indexAssignment object index value)
    | .field object name _ => do
      let object ← eval fuel object
      Exec.apply (← Exec.view fun heap => heap.fieldAssignment object name value)
    | target => Exec.fail (.invalidTarget ("ast_nodes." ++ target.formName))

def execUse : Nat → List String → Selection → Option String → Location → Exec Unit
  | 0, _, _, _, _ => Exec.exhausted
  | fuel + 1, names, selection, newName, location => do
    let machine ← get
    match Modules.locate machine.world machine.basePath names with
    | .error fault => Exec.fault fault
    | .ok none =>
      throw (.failure (.error (.runtime (.moduleNotFound (".".intercalate names))
        (some location))))
    | .ok (some path) =>
      let module ← loadModule fuel path
      importSelection selection newName location module

/-- Loads the module at a path, or gives the one that was loaded from there before, even if nothing
is there any more.  A module is remembered before its contents are looked at, so modules may import
each other. -/
def loadModule : Nat → String → Exec Value
  | 0, _ => Exec.exhausted
  | fuel + 1, path => do
    let world ← Exec.world id
    match world.disk.find world.workingDirectory path with
    | .error error =>
      match (← get).modules.lookup (Disk.normalize world.workingDirectory path) with
      | some module => return module
      | none => Exec.fault (Modules.absence error path)
    | .ok (resolved, node) =>
      match (← get).modules.lookup resolved with
      | some module => return module
      | none =>
        let module ← Exec.alloc (.module (Modules.moduleName path) [])
        modify fun machine => { machine with modules := machine.modules ++ [(resolved, module)] }
        match node with
        | .directory => loadMembers fuel module path (Modules.members world.disk resolved)
        | .file content =>
          let program ← readModule path content
          Exec.inScope 0 (do
            useAll fuel program
            let scope := (← get).current
            defineMembers scope (some module) program
            evalGlobals fuel module program)
        return module

def loadMembers : Nat → Value → String → List (String × String) → Exec Unit
  | 0, _, _, _ => Exec.exhausted
  | _ + 1, _, _, [] => pure ()
  | fuel + 1, module, path, (name, file) :: rest => do
    let member ← loadModule fuel (Modules.join path file)
    setMember module name member
    loadMembers fuel module path rest

def useAll : Nat → List Stmt → Exec Unit
  | 0, _ => Exec.exhausted
  | _ + 1, [] => pure ()
  | fuel + 1, stmt :: rest => do
    match stmt with
    | .use path selection newName location => execUse fuel path selection newName location
    | _ => pure ()
    useAll fuel rest

def evalGlobals : Nat → Value → List Stmt → Exec Unit
  | 0, _, _ => Exec.exhausted
  | _ + 1, _, [] => pure ()
  | fuel + 1, module, stmt :: rest => do
    match stmt with
    | .globalVar name type initializer _ =>
      let value ← eval fuel initializer
      Exec.defineHere name type value
      setMember module name value
    | _ => pure ()
    evalGlobals fuel module rest

end

def Stmt.isAction : Stmt → Bool
  | .function _ _ _ _ _ => false
  | .struct _ _ _ => false
  | .use _ _ _ _ => false
  | _ => true

def Program.run (fuel : Nat) (program : Program) : Exec Unit := do
  useAll fuel program
  defineMembers 0 none program
  execAll fuel (program.filter Stmt.isAction)

end Noxy
