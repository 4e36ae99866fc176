import Noxy.Heap.Equality

/-!
# Order of values

Numbers are ordered by their amount, texts and bytes character by character, and arrays by their
first difference.
-/

namespace Noxy

inductive Comparison where
  | less
  | lessEqual
  | greater
  | greaterEqual
  deriving DecidableEq, Repr

namespace Comparison

def text : Comparison → String
  | less => "<"
  | lessEqual => "<="
  | greater => ">"
  | greaterEqual => ">="

def holds : Comparison → Ordering → Bool
  | less, .lt => true
  | lessEqual, .lt => true
  | lessEqual, .eq => true
  | greater, .gt => true
  | greaterEqual, .gt => true
  | greaterEqual, .eq => true
  | _, _ => false

end Comparison

def compareLists [Ord α] : List α → List α → Ordering
  | [], [] => .eq
  | [], _ :: _ => .lt
  | _ :: _, [] => .gt
  | first :: rest, first' :: rest' => (compare first first').then (compareLists rest rest')

namespace Heap

def compareElements (equal : Value → Value → Bool)
    (compare : Value → Value → Except Failure Bool) (comparison : Comparison) :
    List Value → List Value → Except Failure Bool
  | [], [] => .ok (comparison.holds .eq)
  | [], _ :: _ => .ok (comparison.holds .lt)
  | _ :: _, [] => .ok (comparison.holds .gt)
  | first :: rest, first' :: rest' =>
    if equal first first' then
      compareElements equal compare comparison rest rest'
    else
      compare first first'

def compareWithin (heap : Heap) (comparison : Comparison) :
    Nat → Value → Value → Except Failure Bool
  | 0, _, _ => .error .exhausted
  | depth + 1, left, right =>
    match left, right with
    | .string text, .string text' => .ok (comparison.holds (compareLists text.toList text'.toList))
    | .bytes content, .bytes content' => .ok (comparison.holds (compareLists content content'))
    | left, right =>
      match left.numeric?, right.numeric? with
      | some number, some number' =>
        match number.compare number' with
        | some order => .ok (comparison.holds order)
        | none => .ok false
      | _, _ =>
        match heap.object? left, heap.object? right with
        | some (.list elements), some (.list elements') =>
          compareElements heap.equalElements (compareWithin heap comparison depth)
            comparison elements.toList elements'.toList
        | _, _ =>
          .error (.fault (.unordered comparison.text (heap.className left)
            (heap.className right)))

def compare (heap : Heap) (comparison : Comparison) (left right : Value) : Except Failure Bool :=
  heap.compareWithin comparison heap.depth left right

end Heap

end Noxy
