import Noxy.Heap

/-!
# Copies of values

A copy of an array or a struct instance has copies of the arrays and struct instances inside it.
-/

namespace Noxy.Heap

def copyList (copy : Value → Heap → Value × Heap) : List Value → Heap → List Value × Heap
  | [], heap => ([], heap)
  | value :: rest, heap =>
    let (value, heap) := copy value heap
    let (rest, heap) := copyList copy rest heap
    (value :: rest, heap)

def copyFields (copy : Value → Heap → Value × Heap) :
    List (String × Value) → Heap → List (String × Value) × Heap
  | [], heap => ([], heap)
  | (name, value) :: rest, heap =>
    let (value, heap) := copy value heap
    let (rest, heap) := copyFields copy rest heap
    ((name, value) :: rest, heap)

def copyWithin : Nat → Value → Heap → Value × Heap
  | 0, value, heap => (value, heap)
  | depth + 1, value, heap =>
    match heap.object? value with
    | some (.list elements) =>
      let (elements, heap) := copyList (copyWithin depth) elements.toList heap
      heap.alloc (.list elements.toArray)
    | some (.struct name fields) =>
      let (fields, heap) := copyFields (copyWithin depth) fields heap
      heap.alloc (.struct name fields)
    | _ => (value, heap)

/-- Only what lies on a cycle is deeper than the heap is large, and it is not copied. -/
def deepCopy (value : Value) (heap : Heap) : Value × Heap :=
  copyWithin heap.depth value heap

end Noxy.Heap
