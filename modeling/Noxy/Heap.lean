import Noxy.Bindings
import Noxy.Error
import Noxy.Value

/-!
# Objects and the heap

Objects are the values with parts: arrays, maps, struct instances, references and modules.
-/

namespace Noxy

inductive Target where
  | value (value : Value)
  | field (object : Value) (name : String)
  | key (object : Value) (key : Value)
  | index (object : Value) (index : Value)

inductive Object where
  | list (elements : Array Value)
  | array (elements : Array Value) (element : Ty)
  | map (entries : List (Key × Value))
  | struct (name : String) (fields : List (String × Value))
  | ref (target : Target)
  | module (name : String) (members : List (String × Value))

instance : Inhabited Object :=
  ⟨.list #[]⟩

def Object.mapElements (change : Array Value → Array Value) : Object → Object
  | list elements => list (change elements)
  | array elements element => array (change elements) element
  | object => object

def Object.mapEntries (change : List (Key × Value) → List (Key × Value)) : Object → Object
  | map entries => map (change entries)
  | object => object

def Object.mapFields (change : List (String × Value) → List (String × Value)) : Object → Object
  | struct name fields => struct name (change fields)
  | object => object

def Object.mapMembers (change : List (String × Value) → List (String × Value)) : Object → Object
  | module name members => module name (change members)
  | object => object

structure Change where
  address : Address
  change : Object → Object

/-- What an operation makes: a value, a double, which is yet to be marked if it is not a number, or
an object that is yet to be put into the heap. -/
inductive Made where
  | value (value : Value)
  | float (value : Float)
  | object (object : Object)

def Made.numeric? : Made → Option Numeric
  | .value made => made.numeric?
  | .float made => some (.float made)
  | .object _ => none

/-- A heap holds objects, addressed in the order of their making.  The marks of what is not a number
are given out in order, too; `marks` is the next one. -/
structure Heap where
  objects : Array Object
  marks : Nat

namespace Heap

def empty : Heap :=
  ⟨#[], 0⟩

def size (heap : Heap) : Nat :=
  heap.objects.size

def get? (heap : Heap) (address : Address) : Option Object :=
  heap.objects[address]?

def alloc (heap : Heap) (object : Object) : Value × Heap :=
  (.object heap.objects.size, { heap with objects := heap.objects.push object })

def number (heap : Heap) (value : Float) : Value × Heap :=
  if value.isNaN then (.nan heap.marks, { heap with marks := heap.marks + 1 })
  else (.float value, heap)

def modify (heap : Heap) (address : Address) (change : Object → Object) : Heap :=
  { heap with objects := heap.objects.modify address change }

def apply (heap : Heap) (change : Change) : Heap :=
  heap.modify change.address change.change

def object? (heap : Heap) : Value → Option Object
  | .object address => heap.get? address
  | _ => none

def depth (heap : Heap) : Nat :=
  heap.size + 2

def className (heap : Heap) : Value → String
  | .null => "NoneType"
  | .bool _ => "bool"
  | .int _ => "int"
  | .float _ => "float"
  | .nan _ => "float"
  | .string _ => "str"
  | .bytes _ => "bytes"
  | .function _ => "FuncDef"
  | .struct _ => "StructDef"
  | .object address =>
    match heap.get? address with
    | some (.list _) => "list"
    | some (.array _ _) => "NoxyArray"
    | some (.map _) => "dict"
    | some (.struct _ _) => "NoxyStruct"
    | some (.ref _) => "NoxyRef"
    | some (.module _ _) => "NoxyModule"
    | none => "NoneType"

def fullClassName (heap : Heap) (value : Value) : String :=
  let name := heap.className value
  match value with
  | .function _ => "ast_nodes." ++ name
  | .struct _ => "ast_nodes." ++ name
  | .object address =>
    match heap.get? address with
    | some (.list _) => name
    | some (.map _) => name
    | none => name
    | some _ => "environment." ++ name
  | _ => name

end Heap

namespace Map

def get? (key : Key) : List (Key × Value) → Option Value
  | [] => none
  | (other, value) :: rest => if other.same key then some value else get? key rest

def put (key : Key) (value : Value) : List (Key × Value) → List (Key × Value)
  | [] => [(key, value)]
  | (other, old) :: rest =>
    if other.same key then (other, value) :: rest else (other, old) :: put key value rest

def remove (key : Key) : List (Key × Value) → List (Key × Value)
  | [] => []
  | (other, value) :: rest => if other.same key then rest else (other, value) :: remove key rest

end Map

end Noxy
