import Noxy.Fault
import Noxy.Number.Arith
import Noxy.Number.Binary64
import Noxy.Program.Stmt

/-!
# Values

The values that programs compute with.
-/

namespace Noxy

abbrev Address :=
  Nat

inductive Value where
  | null
  | bool (value : Bool)
  | int (value : Int)
  | float (value : Float)
  | nan (mark : Nat)
  | string (value : String)
  | bytes (value : List UInt8)
  | object (address : Address)
  | function (definition : Function)
  | struct (definition : Struct)

instance : Inhabited Value :=
  ⟨.null⟩

inductive Numeric where
  | int (value : Int)
  | float (value : Float)

namespace Numeric

def compare : Numeric → Numeric → Option Ordering
  | int left, int right => some (Ord.compare left right)
  | int left, float right => Number.compareIntFloat left right
  | float left, int right => (Number.compareIntFloat right left).map Ordering.swap
  | float left, float right => Number.compareFloats left right

def equal (left right : Numeric) : Bool :=
  left.compare right = some .eq

def toFloat : Numeric → Except Fault Float
  | float value => .ok value
  | int value =>
    match Number.ofInt? value with
    | some value => .ok value
    | none => .error .integerTooLarge

end Numeric

namespace Value

def numeric? : Value → Option Numeric
  | bool value => some (.int (if value then 1 else 0))
  | int value => some (.int value)
  | float value => some (.float value)
  | nan _ => some (.float Number.notANumber)
  | _ => none

def float? : Value → Option Float
  | float value => some value
  | nan _ => some Number.notANumber
  | _ => none

def int? : Value → Option Int
  | bool value => some (if value then 1 else 0)
  | int value => some value
  | _ => none

def string? : Value → Option String
  | string value => some value
  | _ => none

def sameMark : Value → Value → Bool
  | nan mark, nan mark' => mark = mark'
  | _, _ => false

def isNull : Value → Bool
  | null => true
  | _ => false

end Value

inductive Key where
  | null
  | bool (value : Bool)
  | int (value : Int)
  | float (value : Float)
  | nan (mark : Nat)
  | string (value : String)
  | bytes (value : List UInt8)
  deriving DecidableEq, Repr

namespace Key

def value : Key → Value
  | null => .null
  | bool value => .bool value
  | int value => .int value
  | float value => .float value
  | nan mark => .nan mark
  | string value => .string value
  | bytes value => .bytes value

def same (left right : Key) : Bool :=
  match left, right with
  | null, null => true
  | nan mark, nan mark' => mark = mark'
  | string text, string text' => text = text'
  | bytes content, bytes content' => content = content'
  | left, right =>
    match left.value.numeric?, right.value.numeric? with
    | some number, some number' => number.equal number'
    | _, _ => false

end Key

def Value.key? : Value → Option Key
  | .null => some .null
  | .bool value => some (.bool value)
  | .int value => some (.int value)
  | .float value => some (.float value)
  | .nan mark => some (.nan mark)
  | .string value => some (.string value)
  | .bytes value => some (.bytes value)
  | _ => none

end Noxy
