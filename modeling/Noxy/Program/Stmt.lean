import Noxy.Program.Expr

/-!
# Statements and programs

The statements of the language, each with its place.
-/

namespace Noxy

structure Declared where
  name : String
  type : Ty
  deriving DecidableEq, Repr

/-- What an import takes from a module: the module itself, all its members, or some by name. -/
inductive Selection where
  | whole
  | all
  | names (names : List String)
  deriving DecidableEq, Repr

inductive Stmt where
  | letVar (name : String) (type : Ty) (initializer : Option Expr) (location : Location)
  | globalVar (name : String) (type : Ty) (initializer : Expr) (location : Location)
  | assign (target value : Expr) (location : Location)
  | expression (expression : Expr) (location : Location)
  | branch (condition : Expr) (thenBody elseBody : List Stmt) (location : Location)
  | loop (condition : Expr) (body : List Stmt) (location : Location)
  | returning (value : Option Expr) (location : Location)
  | breaking (location : Location)
  | function (name : String) (params : List Declared) (returns : Ty) (body : List Stmt)
      (location : Location)
  | struct (name : String) (fields : List Declared) (location : Location)
  | use (path : List String) (selection : Selection) (newName : Option String) (location : Location)

structure Function where
  name : String
  params : List Declared
  returns : Ty
  body : List Stmt
  location : Location

structure Struct where
  name : String
  fields : List Declared
  location : Location
  deriving DecidableEq, Repr

abbrev Program :=
  List Stmt

def Stmt.function? : Stmt → Option Function
  | .function name params returns body location => some ⟨name, params, returns, body, location⟩
  | _ => none

def Stmt.struct? : Stmt → Option Struct
  | .struct name fields location => some ⟨name, fields, location⟩
  | _ => none

def Declared.sameAs (left right : Declared) : Bool :=
  left.name = right.name && left.type.sameShape right.type

def Declared.listSameAs : List Declared → List Declared → Bool
  | [], [] => true
  | first :: rest, first' :: rest' => first.sameAs first' && Declared.listSameAs rest rest'
  | _, _ => false

def Expr.optionSameAs : Option Expr → Option Expr → Bool
  | none, none => true
  | some value, some value' => value.sameAs value'
  | _, _ => false

mutual

def Stmt.sameAs : Stmt → Stmt → Bool
  | .letVar name type initializer _, .letVar name' type' initializer' _ =>
    name = name' && type.sameShape type' && Expr.optionSameAs initializer initializer'
  | .globalVar name type initializer _, .globalVar name' type' initializer' _ =>
    name = name' && type.sameShape type' && initializer.sameAs initializer'
  | .assign target value _, .assign target' value' _ => target.sameAs target' && value.sameAs value'
  | .expression value _, .expression value' _ => value.sameAs value'
  | .branch condition thenBody elseBody _, .branch condition' thenBody' elseBody' _ =>
    condition.sameAs condition' && Stmt.listSameAs thenBody thenBody' &&
      Stmt.listSameAs elseBody elseBody'
  | .loop condition body _, .loop condition' body' _ =>
    condition.sameAs condition' && Stmt.listSameAs body body'
  | .returning value _, .returning value' _ => Expr.optionSameAs value value'
  | .breaking _, .breaking _ => true
  | .function name params returns body _, .function name' params' returns' body' _ =>
    name = name' && Declared.listSameAs params params' && returns.sameShape returns' &&
      Stmt.listSameAs body body'
  | .struct name fields _, .struct name' fields' _ =>
    name = name' && Declared.listSameAs fields fields'
  | .use path selection newName _, .use path' selection' newName' _ =>
    path = path' && selection = selection' && newName = newName'
  | _, _ => false

def Stmt.listSameAs : List Stmt → List Stmt → Bool
  | [], [] => true
  | first :: rest, first' :: rest' => first.sameAs first' && Stmt.listSameAs rest rest'
  | _, _ => false

end

def Function.sameAs (left right : Function) : Bool :=
  left.name = right.name && Declared.listSameAs left.params right.params &&
    left.returns.sameShape right.returns && Stmt.listSameAs left.body right.body

def Struct.sameAs (left right : Struct) : Bool :=
  left.name = right.name && Declared.listSameAs left.fields right.fields

end Noxy
