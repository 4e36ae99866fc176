import Noxy.Program.Parser

/-!
# Moving code

Places carry nothing but the origin of code, and may be changed all at once.
-/

namespace Noxy

def Token.moved (move : Location → Location) (token : Token) : Token :=
  { token with location := move token.location }

mutual

/-- The expression with its places changed. -/
def Expr.moved (move : Location → Location) : Expr → Expr
  | .int value location => .int value (move location)
  | .float value location => .float value (move location)
  | .string value location => .string value (move location)
  | .bytes value location => .bytes value (move location)
  | .bool value location => .bool value (move location)
  | .null location => .null (move location)
  | .identifier name location => .identifier name (move location)
  | .binary left operator right location =>
    .binary (left.moved move) operator (right.moved move) (move location)
  | .unary operator operand location => .unary operator (operand.moved move) (move location)
  | .call callee arguments location =>
    .call (callee.moved move) (Expr.listMoved move arguments) (move location)
  | .index object place location => .index (object.moved move) (place.moved move) (move location)
  | .field object name location => .field (object.moved move) name (move location)
  | .array elements location => .array (Expr.listMoved move elements) (move location)
  | .map entries location => .map (Expr.entriesMoved move entries) (move location)
  | .ref value location => .ref (value.moved move) (move location)
  | .template parts location => .template (TemplatePart.listMoved move parts) (move location)
  | .zeros size location => .zeros (size.moved move) (move location)
  | .group inner location => .group (inner.moved move) (move location)

def Expr.listMoved (move : Location → Location) : List Expr → List Expr
  | [] => []
  | first :: rest => first.moved move :: Expr.listMoved move rest

def Expr.entriesMoved (move : Location → Location) : List (Expr × Expr) → List (Expr × Expr)
  | [] => []
  | (key, value) :: rest => (key.moved move, value.moved move) :: Expr.entriesMoved move rest

def TemplatePart.listMoved (move : Location → Location) : List TemplatePart → List TemplatePart
  | [] => []
  | .text content :: rest => .text content :: TemplatePart.listMoved move rest
  | .interpolation expression format :: rest =>
    .interpolation (expression.moved move) format :: TemplatePart.listMoved move rest

end

mutual

def Stmt.moved (move : Location → Location) : Stmt → Stmt
  | .letVar name type initializer location =>
    .letVar name type (initializer.map (Expr.moved move)) (move location)
  | .globalVar name type initializer location =>
    .globalVar name type (initializer.moved move) (move location)
  | .assign target value location => .assign (target.moved move) (value.moved move) (move location)
  | .expression value location => .expression (value.moved move) (move location)
  | .branch condition thenBody elseBody location =>
    .branch (condition.moved move) (Stmt.listMoved move thenBody) (Stmt.listMoved move elseBody)
      (move location)
  | .loop condition body location =>
    .loop (condition.moved move) (Stmt.listMoved move body) (move location)
  | .returning value location => .returning (value.map (Expr.moved move)) (move location)
  | .breaking location => .breaking (move location)
  | .function name params returns body location =>
    .function name params returns (Stmt.listMoved move body) (move location)
  | .struct name fields location => .struct name fields (move location)
  | .use path selection newName location => .use path selection newName (move location)

def Stmt.listMoved (move : Location → Location) : List Stmt → List Stmt
  | [] => []
  | first :: rest => first.moved move :: Stmt.listMoved move rest

end

end Noxy
