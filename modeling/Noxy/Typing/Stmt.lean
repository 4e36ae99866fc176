import Noxy.Typing.Expr

/-!
# Checking programs

A program is checked in two passes.
-/

namespace Noxy

namespace Check

def typeOf (expr : Expr) : Check Ty := fun checker =>
  match checker.typeOf expr with
  | .ok type => .ok type checker
  | .error failure => .error failure checker

def enter : Check Unit :=
  modify Checker.enter

def leave : Check Unit :=
  modify Checker.leave

end Check

def Ty.initializerRefusal? (declared actual : Ty) : Option TypingCause :=
  match declared, actual with
  | .array _ _, .array .void _ => none
  | .array element _, .array element' _ =>
    if element.equal element' then none
    else some (.elementMismatch element.name element'.name)
  | .array _ _, _ => none
  | declared, actual =>
    if declared.accepts actual then none
    else some (.initializerMismatch declared.name actual.name)

def defineParams : List Declared → Check Unit
  | [] => pure ()
  | param :: rest => do
    modify fun checker => checker.define param.name param.type
    defineParams rest

def checkReturn (value : Option Expr) (location : Location) : Check Unit := do
  match (← get).returns, value with
  | none, _ => pure ()
  | some expected, none => Check.require (expected = .void) (.returnsNothing expected.name) location
  | some expected, some value =>
    let actual ← Check.typeOf value
    Check.require (expected.accepts actual) (.returnMismatch expected.name actual.name) location

mutual

def Stmt.check : Stmt → Check Unit
  | .letVar name type initializer location => do
    match initializer with
    | none => pure ()
    | some initializer =>
      let actual ← Check.typeOf initializer
      match type.initializerRefusal? actual with
      | some cause => Check.fail cause location
      | none => pure ()
    modify fun checker => checker.define name type
  | .globalVar name type initializer location => do
    let actual ← Check.typeOf initializer
    Check.require (type.accepts actual) (.initializerMismatch type.name actual.name) location
    modify fun checker => checker.defineGlobal name type
  | .assign target value location => do
    let expected ← Check.typeOf target
    let actual ← Check.typeOf value
    Check.require (expected.accepts actual) (.assignmentMismatch expected.name actual.name)
      location
  | .expression expr _ => do
    let _ ← Check.typeOf expr
  | .branch condition thenBody elseBody location => do
    let type ← Check.typeOf condition
    Check.require (type = .bool) (.ifCondition type.name) location
    Check.enter
    Stmt.checkAll thenBody
    Check.leave
    Check.enter
    Stmt.checkAll elseBody
    Check.leave
  | .loop condition body location => do
    let type ← Check.typeOf condition
    Check.require (type = .bool) (.whileCondition type.name) location
    Check.enter
    Stmt.checkAll body
    Check.leave
  | .returning value location => checkReturn value location
  | .breaking _ => pure ()
  | .function _ params returns body _ => do
    let previous := (← get).returns
    modify fun checker => { checker with returns := some returns }
    Check.enter
    defineParams params
    Stmt.checkAll body
    Check.leave
    modify fun checker => { checker with returns := previous }
  | .struct _ _ _ => pure ()
  | .use _ _ _ _ => pure ()

def Stmt.checkAll : List Stmt → Check Unit
  | [] => pure ()
  | stmt :: rest => do
    stmt.check
    Stmt.checkAll rest

end

def interfaceOf (world : World) (path : String) (name : String) (location : Location) :
    Check Nat := do
  match world.disk.find world.workingDirectory path with
  | .error _ => Check.fail (.moduleNotFound path) location
  | .ok (place, _) =>
    match (← get).loaded.lookup place with
    | some number => return number
    | none =>
      let known := (← get).interfaces
      let depth := 3 * world.disk.nodes.length + 3
      match Interface.load world.disk depth place path name known with
      | .ok (number, known) =>
        modify fun checker =>
          { checker with interfaces := known, loaded := (place, number) :: checker.loaded }
        return number
      | .error (.fault fault) => Check.fail (.importFailed fault.text) location
      | .error failure => throw failure

def importNames (members : List (String × Member)) (path : String) (location : Location) :
    List String → Check Unit
  | [] => pure ()
  | name :: rest => do
    match Bindings.get? name members with
    | some member => modify fun checker => checker.defineMember name member
    | none => Check.fail (.symbolNotFound name path) location
    importNames members path location rest

def checkUse (world : World) (basePath : String) (names : List String) (selection : Selection)
    (newName : Option String) (location : Location) : Check Unit := do
  let path := ".".intercalate names
  match Modules.locate world basePath names with
  | .error fault => throw (.fault fault)
  | .ok none => Check.fail (.moduleNotFound path) location
  | .ok (some place) =>
    let number ← interfaceOf world place (names.getLast?.getD "") location
    match (← get).interfaces[number]? with
    | none => pure ()
    | some interface =>
      match selection with
      | .whole =>
        modify fun checker =>
          checker.define (newName.getD interface.name) (.imported interface.name number)
      | .all =>
        modify fun checker => interface.members.foldl
          (fun checker (name, member) => checker.defineMember name member) checker
      | .names selected => importNames interface.members path location selected

def declareAll (world : World) (basePath : String) : List Stmt → Check Unit
  | [] => pure ()
  | stmt :: rest => do
    match stmt with
    | .struct name fields location =>
      modify fun checker => checker.defineStruct name ⟨name, fields, location⟩
    | .function name params returns body location =>
      modify fun checker => checker.defineFunction name ⟨name, params, returns, body, location⟩
    | .use names selection newName location =>
      checkUse world basePath names selection newName location
    | _ => pure ()
    declareAll world basePath rest

def Program.check (world : World) (basePath : String) (program : Program) : Check Unit := do
  declareAll world basePath program
  Stmt.checkAll program

end Noxy
