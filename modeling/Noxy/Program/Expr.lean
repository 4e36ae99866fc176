import Noxy.Location
import Noxy.Number.Digits
import Noxy.Ty

/-!
# Expressions

The expressions of the language, each with its place.
-/

namespace Noxy

inductive BinaryOperator where
  | add
  | subtract
  | multiply
  | divide
  | modulo
  | greater
  | less
  | greaterEqual
  | lessEqual
  | equal
  | different
  | and
  | or
  deriving DecidableEq, Repr

def BinaryOperator.text : BinaryOperator → String
  | add => "+"
  | subtract => "-"
  | multiply => "*"
  | divide => "/"
  | modulo => "%"
  | greater => ">"
  | less => "<"
  | greaterEqual => ">="
  | lessEqual => "<="
  | equal => "=="
  | different => "!="
  | and => "&"
  | or => "|"

inductive UnaryOperator where
  | negate
  | invert
  deriving DecidableEq, Repr

def UnaryOperator.text : UnaryOperator → String
  | negate => "-"
  | invert => "!"

mutual

inductive Expr where
  | int (value : Nat) (location : Location)
  | float (value : Float) (location : Location)
  | string (value : String) (location : Location)
  | bytes (value : List UInt8) (location : Location)
  | bool (value : Bool) (location : Location)
  | null (location : Location)
  | identifier (name : String) (location : Location)
  | binary (left : Expr) (operator : BinaryOperator) (right : Expr) (location : Location)
  | unary (operator : UnaryOperator) (operand : Expr) (location : Location)
  | call (callee : Expr) (arguments : List Expr) (location : Location)
  | index (object index : Expr) (location : Location)
  | field (object : Expr) (name : String) (location : Location)
  | array (elements : List Expr) (location : Location)
  | map (entries : List (Expr × Expr)) (location : Location)
  | ref (value : Expr) (location : Location)
  | template (parts : List TemplatePart) (location : Location)
  | zeros (size : Expr) (location : Location)
  | group (inner : Expr) (location : Location)

inductive TemplatePart where
  | text (content : String)
  | interpolation (expression : Expr) (format : Option String)

end

namespace Expr

def location : Expr → Location
  | int _ location => location
  | float _ location => location
  | string _ location => location
  | bytes _ location => location
  | bool _ location => location
  | null location => location
  | identifier _ location => location
  | binary _ _ _ location => location
  | unary _ _ location => location
  | call _ _ location => location
  | index _ _ location => location
  | field _ _ location => location
  | array _ location => location
  | map _ location => location
  | ref _ location => location
  | template _ location => location
  | zeros _ location => location
  | group _ location => location

def formName : Expr → String
  | int _ _ => "IntLiteral"
  | float _ _ => "FloatLiteral"
  | string _ _ => "StringLiteral"
  | bytes _ _ => "BytesLiteral"
  | bool _ _ => "BoolLiteral"
  | null _ => "NullLiteral"
  | identifier _ _ => "Identifier"
  | binary _ _ _ _ => "BinaryOp"
  | unary _ _ _ => "UnaryOp"
  | call _ _ _ => "CallExpr"
  | index _ _ _ => "IndexExpr"
  | field _ _ _ => "FieldAccess"
  | array _ _ => "ArrayLiteral"
  | map _ _ => "MapLiteral"
  | ref _ _ => "RefExpr"
  | template _ _ => "FString"
  | zeros _ _ => "ZerosExpr"
  | group _ _ => "GroupExpr"

end Expr

mutual

def Expr.sameAs : Expr → Expr → Bool
  | .int value _, .int value' _ => value = value'
  | .float value _, .float value' _ => value == value'
  | .string value _, .string value' _ => value = value'
  | .bytes value _, .bytes value' _ => value = value'
  | .bool value _, .bool value' _ => value = value'
  | .null _, .null _ => true
  | .identifier name _, .identifier name' _ => name = name'
  | .binary left operator right _, .binary left' operator' right' _ =>
    left.sameAs left' && operator = operator' && right.sameAs right'
  | .unary operator operand _, .unary operator' operand' _ =>
    operator = operator' && operand.sameAs operand'
  | .call callee arguments _, .call callee' arguments' _ =>
    callee.sameAs callee' && Expr.listSameAs arguments arguments'
  | .index object place _, .index object' place' _ => object.sameAs object' && place.sameAs place'
  | .field object name _, .field object' name' _ => object.sameAs object' && name = name'
  | .array elements _, .array elements' _ => Expr.listSameAs elements elements'
  | .map entries _, .map entries' _ => Expr.entriesSameAs entries entries'
  | .ref value _, .ref value' _ => value.sameAs value'
  | .template parts _, .template parts' _ => TemplatePart.listSameAs parts parts'
  | .zeros size _, .zeros size' _ => size.sameAs size'
  | .group inner _, .group inner' _ => inner.sameAs inner'
  | _, _ => false

def Expr.listSameAs : List Expr → List Expr → Bool
  | [], [] => true
  | first :: rest, first' :: rest' => first.sameAs first' && Expr.listSameAs rest rest'
  | _, _ => false

def Expr.entriesSameAs : List (Expr × Expr) → List (Expr × Expr) → Bool
  | [], [] => true
  | (key, value) :: rest, (key', value') :: rest' =>
    key.sameAs key' && value.sameAs value' && Expr.entriesSameAs rest rest'
  | _, _ => false

def TemplatePart.sameAs : TemplatePart → TemplatePart → Bool
  | .text content, .text content' => content = content'
  | .interpolation expression format, .interpolation expression' format' =>
    expression.sameAs expression' && format = format'
  | _, _ => false

def TemplatePart.listSameAs : List TemplatePart → List TemplatePart → Bool
  | [], [] => true
  | first :: rest, first' :: rest' => first.sameAs first' && TemplatePart.listSameAs rest rest'
  | _, _ => false

end

end Noxy
