import Noxy.Proofs.Bindings
import Noxy.Typing.Stmt

/-!
# Programs on scalars

Scalars are the values without parts: numbers, texts, truth values and bytes.
-/

namespace Noxy

def Ty.isScalar : Ty → Bool
  | int => true
  | float => true
  | string => true
  | bool => true
  | bytes => true
  | _ => false

def Value.isOf : Value → Ty → Bool
  | int _, .int => true
  | float _, .float => true
  | nan _, .float => true
  | string _, .string => true
  | bool _, .bool => true
  | bytes _, .bytes => true
  | null, .void => true
  | _, _ => false

/-! ### Which programs are scalar -/

mutual

def Expr.isScalar (callable known : String → Bool) : Expr → Bool
  | .int _ _ => true
  | .float _ _ => true
  | .string _ _ => true
  | .bytes _ _ => true
  | .bool _ _ => true
  | .identifier name _ => known name
  | .binary left _ right _ => left.isScalar callable known && right.isScalar callable known
  | .unary _ operand _ => operand.isScalar callable known
  | .index object position _ => object.isScalar callable known && position.isScalar callable known
  | .group inner _ => inner.isScalar callable known
  | .call (.identifier name _) arguments _ =>
    callable name && Expr.areScalar callable known arguments
  | _ => false

def Expr.areScalar (callable known : String → Bool) : List Expr → Bool
  | [] => true
  | expr :: rest => expr.isScalar callable known && Expr.areScalar callable known rest

end

def Stmt.knownAfter (known : String → Bool) : Stmt → String → Bool
  | .letVar name _ _ _ => fun other => other = name || known other
  | _ => known

mutual

def Stmt.isScalar (callable : String → Bool) (inFunction : Bool) :
    Bool → (String → Bool) → Stmt → Bool
  | _, _, .letVar _ type none _ => type.isScalar
  | _, known, .letVar _ type (some initializer) _ =>
    type.isScalar && initializer.isScalar callable known
  | _, known, .assign (.identifier name _) value _ => known name && value.isScalar callable known
  | _, known, .expression expr _ => expr.isScalar callable known
  | inLoop, known, .branch condition thenBody elseBody _ =>
    condition.isScalar callable known &&
      Stmt.areScalar callable inFunction inLoop known thenBody &&
      Stmt.areScalar callable inFunction inLoop known elseBody
  | _, known, .loop condition body _ =>
    condition.isScalar callable known && Stmt.areScalar callable inFunction true known body
  | _, _, .returning none _ => inFunction
  | _, known, .returning (some value) _ => inFunction && value.isScalar callable known
  | inLoop, _, .breaking _ => inLoop
  | _, _, _ => false

def Stmt.areScalar (callable : String → Bool) (inFunction : Bool) :
    Bool → (String → Bool) → List Stmt → Bool
  | _, _, [] => true
  | inLoop, known, stmt :: rest =>
    stmt.isScalar callable inFunction inLoop known &&
      Stmt.areScalar callable inFunction inLoop (stmt.knownAfter known) rest

end

mutual

def Stmt.returns : Stmt → Bool
  | .returning _ _ => true
  | .branch _ thenBody elseBody _ => Stmt.anyReturns thenBody && Stmt.anyReturns elseBody
  | _ => false

def Stmt.anyReturns : List Stmt → Bool
  | [] => false
  | stmt :: rest => stmt.returns || Stmt.anyReturns rest

end

/-- Whether a statement of a program itself is scalar.  Functions know no variables but their
parameters, and those with a result return it on every path. -/
def Stmt.isScalarMember (callable : String → Bool) : Stmt → Bool
  | .globalVar _ type initializer _ => type.isScalar && initializer.isScalar callable fun _ => true
  | .function _ params returns body _ =>
    params.all (fun param => param.type.isScalar) &&
      (returns.isScalar || returns = .void) &&
      Stmt.areScalar callable true false (fun name => params.any fun param => param.name = name)
        body &&
      (returns = .void || Stmt.anyReturns body)
  | stmt => stmt.isScalar callable false false fun _ => true

def Program.isCallable (program : Program) (name : String) : Bool :=
  !isReserved name && program.any fun stmt =>
    stmt.function?.any fun function => function.name = name

/-- Programs of scalar variables and functions. -/
def Program.isScalar (program : Program) : Bool :=
  program.all fun stmt => stmt.isScalarMember program.isCallable

/-! ### Types of operations -/

namespace BinaryOperator

variable {operator : BinaryOperator}

theorem ok_of_typed_add (typed : add.typed left right = .ok type) :
    left = .string ∧ right = .string ∧ type = .string ∨
      left = .bytes ∧ right = .bytes ∧ type = .bytes ∨
      left.equal right = true ∧ left.isNumeric = true ∧ type = left := by
  unfold BinaryOperator.typed at typed
  grind

theorem ok_of_typed_arithmetic
    (isArithmetic : operator = .subtract ∨ operator = .multiply ∨ operator = .divide ∨
      operator = .modulo)
    (typed : operator.typed left right = .ok type) :
    left.equal right = true ∧ left.isNumeric = true ∧ type = left := by
  unfold BinaryOperator.typed at typed
  grind

theorem ok_of_typed_order
    (isOrder : operator = .greater ∨ operator = .less ∨ operator = .greaterEqual ∨
      operator = .lessEqual)
    (typed : operator.typed left right = .ok type) :
    left.equal right = true ∧ left.isNumeric = true ∧ type = .bool := by
  unfold BinaryOperator.typed at typed
  grind

theorem ok_of_typed_equality (isEquality : operator = .equal ∨ operator = .different)
    (typed : operator.typed left right = .ok type) : type = .bool := by
  unfold BinaryOperator.typed at typed
  grind

theorem ok_of_typed_logic
    (isLogic : operator = .and ∨ operator = .or) (typed : operator.typed left right = .ok type) :
    left = .bool ∧ right = .bool ∧ type = .bool := by
  unfold BinaryOperator.typed at typed
  grind

theorem typed_isPrimitive
    (isPrimitive : left.isPrimitive = true) (typed : operator.typed left right = .ok type) :
    type.isPrimitive = true := by
  unfold BinaryOperator.typed at typed
  cases operator <;> grind [Ty.isPrimitive]

end BinaryOperator

theorem UnaryOperator.typed_isPrimitive {operator : UnaryOperator}
    (isPrimitive : operand.isPrimitive = true) (typed : operator.typed operand = .ok type) :
    type.isPrimitive = true := by
  cases operator <;> grind [UnaryOperator.typed, Ty.isPrimitive]

theorem Ty.indexed_isPrimitive {object : Ty} (isPrimitive : object.isPrimitive = true)
    (typed : object.indexed index = .ok type) : type.isPrimitive = true := by
  cases object <;> grind [Ty.indexed, Ty.referenced, Ty.isPrimitive]

/-! ### Typing rules -/

abbrev Frame :=
  List (String × Ty)

def typeIn (frames : List Frame) (name : String) : Option Ty :=
  frames.findSome? (Bindings.get? name)

def Stmt.declaredIn : Stmt → List Frame → List Frame
  | .letVar name type _ _, frame :: outer => Bindings.put name type frame :: outer
  | .globalVar name type _ _, [frame] => [Bindings.put name type frame]
  | _, frames => frames

def Frame.withParams (frame : Frame) : List Declared → Frame
  | [] => frame
  | param :: rest => Frame.withParams (Bindings.put param.name param.type frame) rest

section

variable (functions : List (String × Function))

mutual

inductive HasType (frames : List Frame) : Expr → Ty → Prop where
  | int : HasType frames (.int value location) .int
  | float : HasType frames (.float value location) .float
  | string : HasType frames (.string value location) .string
  | bytes : HasType frames (.bytes value location) .bytes
  | bool : HasType frames (.bool value location) .bool
  | identifier (found : typeIn frames name = some type) :
      HasType frames (.identifier name location) type
  | binary (left : HasType frames leftExpr leftType) (right : HasType frames rightExpr rightType)
      (typed : operator.typed leftType rightType = .ok type) :
      HasType frames (.binary leftExpr operator rightExpr location) type
  | unary (operand : HasType frames expr operandType)
      (typed : operator.typed operandType = .ok type) :
      HasType frames (.unary operator expr location) type
  | index (object : HasType frames objectExpr objectType)
      (index : HasType frames indexExpr indexType)
      (typed : objectType.indexed indexType = .ok type) :
      HasType frames (.index objectExpr indexExpr location) type
  | group (inner : HasType frames expr type) : HasType frames (.group expr location) type
  | call (found : Bindings.get? name functions = some function)
      (arguments : HaveTypes frames exprs (function.params.map Declared.type)) :
      HasType frames (.call (.identifier name nameLocation) exprs location) function.returns

inductive HaveTypes (frames : List Frame) : List Expr → List Ty → Prop where
  | nil : HaveTypes frames [] []
  | cons (first : HasType frames expr type) (rest : HaveTypes frames exprs types) :
      HaveTypes frames (expr :: exprs) (type :: types)

end

mutual

/-- Statements that fit the frames they stand in, the type that is to be returned, if any, and
whether they stand in a loop. -/
inductive StmtTyped (returns : Option Ty) : Bool → List Frame → Stmt → Prop where
  | letDefault (isScalar : type.isScalar = true) :
      StmtTyped returns inLoop (frame :: outer) (.letVar name type none location)
  | letVar (isScalar : type.isScalar = true)
      (initializer : HasType functions (frame :: outer) expr type) :
      StmtTyped returns inLoop (frame :: outer) (.letVar name type (some expr) location)
  | globalVar (isScalar : type.isScalar = true)
      (initializer : HasType functions [frame] expr type) :
      StmtTyped returns inLoop [frame] (.globalVar name type expr location)
  | assign (target : typeIn frames name = some type) (value : HasType functions frames expr type) :
      StmtTyped returns inLoop frames (.assign (.identifier name nameLocation) expr location)
  | expression (typed : HasType functions frames expr type) :
      StmtTyped returns inLoop frames (.expression expr location)
  | branch (condition : HasType functions frames expr .bool)
      (thenTyped : BodyTyped returns inLoop ([] :: frames) thenBody)
      (elseTyped : BodyTyped returns inLoop ([] :: frames) elseBody) :
      StmtTyped returns inLoop frames (.branch expr thenBody elseBody location)
  | loop (condition : HasType functions frames expr .bool)
      (bodyTyped : BodyTyped returns true ([] :: frames) body) :
      StmtTyped returns inLoop frames (.loop expr body location)
  | returnValue (expected : returns = some type) (value : HasType functions frames expr type) :
      StmtTyped returns inLoop frames (.returning (some expr) location)
  | returnNothing (expected : returns = some .void) :
      StmtTyped returns inLoop frames (.returning none location)
  | breaking : StmtTyped returns true frames (.breaking location)

inductive BodyTyped (returns : Option Ty) : Bool → List Frame → List Stmt → Prop where
  | nil : BodyTyped returns inLoop frames []
  | cons (first : StmtTyped returns inLoop frames stmt)
      (rest : BodyTyped returns inLoop (stmt.declaredIn frames) stmts) :
      BodyTyped returns inLoop frames (stmt :: stmts)

end

structure FunctionTyped (function : Function) : Prop where
  params : ∀ param ∈ function.params, param.type.isScalar = true
  body : BodyTyped functions (some function.returns) false
    [Frame.withParams [] function.params, []] function.body
  returns : function.returns = .void ∨ Stmt.anyReturns function.body = true

end

end Noxy
