import Noxy.Heap.Item
import Noxy.Heap.Order
import Noxy.Heap.Template
import Noxy.Number.Word

/-!
# Operators on values

The arithmetic operators, equality as programs test it, and truth.
-/

namespace Noxy.Heap

def unsupported (heap : Heap) (operator : String) (left right : Value) : Failure :=
  .fault (.unsupportedOperands operator (heap.className left) (heap.className right))

def arithmetic (onInts : Int → Int → Int) (onFloats : Float → Float → Float) :
    Numeric → Numeric → Except Failure Made
  | .int left, .int right => .ok (.value (.int (onInts left right)))
  | left, right => do
    let left ← left.toFloat.mapError .fault
    let right ← right.toFloat.mapError .fault
    return .float (onFloats left right)

def add (heap : Heap) (left right : Value) : Except Failure Made :=
  match left.numeric?, right.numeric? with
  | some number, some number' => arithmetic (· + ·) (· + ·) number number'
  | _, _ =>
    let name := heap.className right
    match left, right with
    | .string text, .string text' => .ok (.value (.string (text ++ text')))
    | .string _, _ => .error (.fault (.kind s!"can only concatenate str (not \"{name}\") to str"))
    | .bytes content, .bytes content' => .ok (.value (.bytes (content ++ content')))
    | .bytes _, _ => .error (.fault (.kind s!"can't concat {name} to bytes"))
    | left, right =>
      match heap.object? left, heap.object? right with
      | some (.list elements), some (.list elements') =>
        .ok (.object (.list (elements ++ elements')))
      | some (.list _), _ =>
        .error (.fault (.kind s!"can only concatenate list (not \"{name}\") to list"))
      | _, _ => .error (heap.unsupported "+" left right)

def subtract (heap : Heap) (left right : Value) : Except Failure Made :=
  match left.numeric?, right.numeric? with
  | some number, some number' => arithmetic (· - ·) (· - ·) number number'
  | _, _ => .error (heap.unsupported "-" left right)

def repeated (count : Nat) (items : List α) : List α :=
  if items.isEmpty then [] else (List.replicate count items).flatten

def repeatCount (number : Int) : Except Failure Nat :=
  if Number.fitsWord number then .ok number.toNat else .error (.fault .countTooLarge)

def repeatedWithin (tooLong : Fault) (count : Nat) (items : List α) : Except Failure (List α) :=
  let length := count * items.length
  if !Number.fitsWord length then .error (.fault tooLong)
  else .ok (repeated count items)

def zeros (number : Int) : Except Failure Object := do
  return .list (← repeatedWithin .memory (← repeatCount number) [.int 0]).toArray

def repeat? (heap : Heap) (sequence count : Value) : Option (Except Failure Made) :=
  let times := match count.int? with
    | some number => repeatCount number
    | none =>
      let name := heap.className count
      .error (Failure.fault (.kind s!"can't multiply sequence by non-int of type '{name}'"))
  match sequence with
  | .string text => some do
      let text ← repeatedWithin (.repetitionTooLong "string is") (← times) text.toList
      return .value (.string (String.ofList text))
  | .bytes content => some do
      let content ← repeatedWithin (.repetitionTooLong "bytes are") (← times) content
      return .value (.bytes content)
  | sequence =>
    match heap.object? sequence with
    | some (.list elements) => some do
        return .object (.list (← repeatedWithin .memory (← times) elements.toList).toArray)
    | _ => none

def multiply (heap : Heap) (left right : Value) : Except Failure Made :=
  match left.numeric?, right.numeric? with
  | some number, some number' => arithmetic (· * ·) (· * ·) number number'
  | _, _ =>
    match heap.repeat? left right with
    | some result => result
    | none =>
      match heap.repeat? right left with
      | some result => result
      | none => .error (heap.unsupported "*" left right)

def isZero : Option Numeric → Bool
  | some number => number.equal (.int 0)
  | none => false

def divide (heap : Heap) (left right : Value) : Except Failure Made :=
  if isZero right.numeric? then
    .error (.error (.runtime .divisionByZero none))
  else
    match left.numeric?, right.numeric? with
    | some number, some number' => arithmetic Int.fdiv (· / ·) number number'
    | _, _ => .error (heap.unsupported "/" left right)

def modulo (heap : Heap) (left right : Value) : Except Failure Made :=
  if isZero right.numeric? then
    .error (.error (.runtime .moduloByZero none))
  else
    match left.numeric?, right.numeric? with
    | some number, some number' => arithmetic Int.fmod Number.floorRemainder number number'
    | _, _ =>
      match left with
      | .string text => .value <$> heap.fill .text text.toList right
      | .bytes content => .value <$> heap.fill .bytes (charsOfBytes content) right
      | left => .error (heap.unsupported "%" left right)

def followOnce (heap : Heap) (value : Value) : Except Failure Value :=
  match heap.object? value with
  | some (.ref target) => heap.targetValue target
  | _ => .ok value

def equals (heap : Heap) (left right : Value) : Except Failure Bool :=
  if left.isNull ∨ right.isNull then
    .ok (left.isNull && right.isNull)
  else do
    let left ← heap.followOnce left
    let right ← heap.followOnce right
    if left.isNull ∨ right.isNull then
      return left.isNull && right.isNull
    else
      return heap.equal left right

def isTrue (heap : Heap) (value : Value) : Except Failure Bool :=
  match value with
  | .null => .ok false
  | .bool flag => .ok flag
  | value =>
    match heap.object? value with
    | some (.ref target) => do
      let value ← heap.targetValue target
      return !value.isNull
    | _ => .ok true

def negate (heap : Heap) (value : Value) : Except Failure Made :=
  match value.numeric? with
  | some (.int number) => .ok (.value (.int (-number)))
  | some (.float number) => .ok (.float (-number))
  | none =>
    let name := heap.className value
    .error (.fault (.kind s!"bad operand type for unary -: '{name}'"))

def binary (heap : Heap) (operator : BinaryOperator) (left right : Value) :
    Except Failure Made :=
  match operator with
  | .add => heap.add left right
  | .subtract => heap.subtract left right
  | .multiply => heap.multiply left right
  | .divide => heap.divide left right
  | .modulo => heap.modulo left right
  | .greater => do return .value (.bool (← heap.compare .greater left right))
  | .less => do return .value (.bool (← heap.compare .less left right))
  | .greaterEqual => do return .value (.bool (← heap.compare .greaterEqual left right))
  | .lessEqual => do return .value (.bool (← heap.compare .lessEqual left right))
  | .equal => do return .value (.bool (← heap.equals left right))
  | .different => do return .value (.bool (!(← heap.equals left right)))
  | .and => do return .value (.bool ((← heap.isTrue left) && (← heap.isTrue right)))
  | .or => do return .value (.bool ((← heap.isTrue left) || (← heap.isTrue right)))

end Noxy.Heap
