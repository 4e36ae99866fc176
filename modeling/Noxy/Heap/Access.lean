import Noxy.Heap.Operator
import Noxy.Heap.Text

/-!
# Elements and fields in expressions

What `object[index]` and `object.field` mean, when they are read and when they are assigned.
-/

namespace Noxy.Heap

def isMap (heap : Heap) (value : Value) : Bool :=
  match heap.object? value with
  | some (.map _) => true
  | _ => false

def checkIndex (heap : Heap) (object index : Value) : Except Failure Unit :=
  if index.int?.isSome || heap.isMap object then .ok ()
  else .error (.error (.runtime .indexNotInteger none))

def boundedPosition (index : Value) (length : Nat) (cause : String → RuntimeCause) :
    Except Failure Nat := do
  let number := index.int?.getD 0
  if 0 ≤ number ∧ number < length then
    return number.toNat
  else
    throw (.error (.runtime (cause (← indexText index)) none))

def indexed (heap : Heap) (object index : Value) : Except Failure Value := do
  heap.checkIndex object index
  let object ← heap.dereference object
  match object with
  | .string text =>
    let characters := text.toList
    let position ← boundedPosition index characters.length (.indexOutside · characters.length)
    return .string (String.ofList (characters[position]?.toList))
  | .bytes content =>
    let position ← boundedPosition index content.length (.indexOutside · content.length)
    return .int (content.getD position 0).toNat
  | object =>
    match heap.object? object with
    | some (.list elements) =>
      let position ← boundedPosition index elements.size (.indexOutside · elements.size)
      return elements.getD position .null
    | some (.array elements _) =>
      let position ← boundedPosition index elements.size (.indexOutside · elements.size)
      return elements.getD position .null
    | some (.map entries) =>
      match index.key? with
      | none => throw (.fault (.unhashable (heap.className index)))
      | some key =>
        match Map.get? key entries with
        | some value => return value
        | none => throw (.error (.runtime (.missingKey (← heap.plain index)) none))
    | _ => throw (.error (.runtime (.notIndexable (heap.fullClassName object)) none))

def selected (heap : Heap) (object : Value) (name : String) : Except Failure Value := do
  let object ← heap.dereference object
  if object.isNull then
    throw (.error (.runtime .fieldOfNull none))
  else
    match heap.object? object with
    | some (.struct struct fields) => fieldOf struct fields name
    | some (.module moduleName members) =>
      match Bindings.get? name members with
      | some value => return value
      | none => throw (.error (.runtime (.missingMember moduleName name) none))
    | _ => throw (.error (.runtime (.noFields (heap.fullClassName object)) none))

def indexAssignment (heap : Heap) (object index value : Value) : Except Failure Change := do
  heap.checkIndex object index
  match object with
  | .string _ => throw (.error (.runtime .immutableString none))
  | .object address =>
    match heap.get? address with
    | some (.list elements) =>
      let position ← boundedPosition index elements.size .indexOutOfRange
      return elementChange address position value
    | some (.array elements _) =>
      let position ← boundedPosition index elements.size .indexOutOfRange
      return elementChange address position value
    | some (.map _) => heap.entryChange address index value
    | _ => throw (.error (.runtime (.notIndexable (heap.fullClassName object)) none))
  | object => throw (.error (.runtime (.notIndexable (heap.fullClassName object)) none))

def fieldAssignment (heap : Heap) (object : Value) (name : String) (value : Value) :
    Except Failure Change := do
  let object ← heap.dereference object
  match object with
  | .object address =>
    match heap.get? address with
    | some (.struct struct fields) => fieldChange address struct fields name value
    | _ => throw (.error (.runtime (.noFields (heap.fullClassName object)) none))
  | object => throw (.error (.runtime (.noFields (heap.fullClassName object)) none))

end Noxy.Heap
