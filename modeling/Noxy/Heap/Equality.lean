import Noxy.Heap

/-!
# Equality of values

Two values are equal if they have the same contents.
-/

namespace Noxy.Heap

def equalLists (equal : Value → Value → Bool) : List Value → List Value → Bool
  | [], [] => true
  | first :: rest, first' :: rest' => equal first first' && equalLists equal rest rest'
  | _, _ => false

def equalBindings (equal : Value → Value → Bool) (left right : List (String × Value)) : Bool :=
  left.length = right.length && left.all fun (name, value) =>
    match Bindings.get? name right with
    | some value' => equal value value'
    | none => false

def equalEntries (equal : Value → Value → Bool) (left right : List (Key × Value)) : Bool :=
  left.length = right.length && left.all fun (key, value) =>
    match Map.get? key right with
    | some value' => equal value value'
    | none => false

def equalTargets (equal : Value → Value → Bool) : Target → Target → Bool
  | .value value, .value value' => equal value value'
  | .field object name, .field object' name' => equal object object' && name = name'
  | .key object key, .key object' key' => equal object object' && equal key key'
  | .index object index, .index object' index' => equal object object' && equal index index'
  | _, _ => false

def agree (equal : Value → Value → Bool) (left right : Value) : Bool :=
  left.sameMark right || equal left right

def equalWithin (heap : Heap) : Nat → Value → Value → Bool
  | 0, _, _ => false
  | depth + 1, left, right =>
    match left, right with
    | .null, .null => true
    | .string text, .string text' => text = text'
    | .bytes content, .bytes content' => content = content'
    | .function definition, .function definition' => definition.sameAs definition'
    | .struct definition, .struct definition' => definition.sameAs definition'
    | .object address, .object address' =>
      address = address' ||
        match heap.get? address, heap.get? address' with
        | some (.list elements), some (.list elements') =>
          equalLists (agree (equalWithin heap depth)) elements.toList elements'.toList
        | some (.array elements element), some (.array elements' element') =>
          equalLists (agree (equalWithin heap depth)) elements.toList elements'.toList &&
            element.sameShape element'
        | some (.map entries), some (.map entries') =>
          equalEntries (agree (equalWithin heap depth)) entries entries'
        | some (.struct name fields), some (.struct name' fields') =>
          name = name' && equalBindings (agree (equalWithin heap depth)) fields fields'
        | some (.ref target), some (.ref target') =>
          equalTargets (agree (equalWithin heap depth)) target target'
        | some (.module name members), some (.module name' members') =>
          name = name' && equalBindings (agree (equalWithin heap depth)) members members'
        | _, _ => false
    | left, right =>
      match left.numeric?, right.numeric? with
      | some number, some number' => number.equal number'
      | _, _ => false

/-- Values are compared down to the size of the heap: only cycles go deeper. -/
def equal (heap : Heap) (left right : Value) : Bool :=
  heap.equalWithin heap.depth left right

def equalElements (heap : Heap) (left right : Value) : Bool :=
  agree heap.equal left right

end Noxy.Heap
