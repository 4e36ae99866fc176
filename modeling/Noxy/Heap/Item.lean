import Noxy.Heap.Equality
import Noxy.Number.Digits
import Noxy.Number.Numeral

/-!
# Elements and references

Reading and writing an element of a value by a position or a key, counting positions from the end if
they are negative, and reading and writing through references.
-/

namespace Noxy

def intText (value : Int) : Except Fault String :=
  if Number.isWritable value then .ok (toString value) else .error .tooManyDigits

def position? (length : Nat) (index : Int) : Option Nat :=
  let position := if index < 0 then index + length else index
  if 0 ≤ position ∧ position < length then some position.toNat else none

namespace Heap

def notSubscriptable (heap : Heap) (value : Value) : Failure :=
  .fault (.kind s!"'{heap.className value}' object is not subscriptable")

def noItemAssignment (heap : Heap) (value : Value) : Failure :=
  .fault (.kind s!"'{heap.className value}' object does not support item assignment")

def listItem (heap : Heap) (elements : Array Value) (index : Value) : Except Failure Value :=
  match index.int? with
  | some number =>
    match (position? elements.size number).bind (elements[·]?) with
    | some value => .ok value
    | none => .error (.fault (.position "list index out of range"))
  | none =>
    let name := heap.className index
    .error (.fault (.kind s!"list indices must be integers or slices, not {name}"))

def numericText : Numeric → Except Fault String
  | .int value => intText value
  | .float value => .ok (Number.shortestText value)

def indexText (index : Value) : Except Failure String :=
  match index, index.numeric? with
  | .bool true, _ => .ok "True"
  | .bool false, _ => .ok "False"
  | _, some number => (numericText number).mapError .fault
  | _, none => .ok ""

def checkBounds (heap : Heap) (length : Nat) (index : Value) : Except Failure Unit := do
  match index.numeric? with
  | none => .error (.fault (.unordered "<" (heap.className index) "int"))
  | some number =>
    if number.compare (.int 0) = some .lt ∨ number.compare (.int length) = some .gt ∨
        number.compare (.int length) = some .eq then
      let text ← indexText index
      .error (.error (.runtime (.elementOutside text length) none))

def item (heap : Heap) (object index : Value) : Except Failure Value :=
  match object with
  | .string text =>
    match index.int? with
    | some number =>
      match (position? text.length number).bind (text.toList[·]?) with
      | some c => .ok (.string c.toString)
      | none => .error (.fault (.position "string index out of range"))
    | none =>
      let name := heap.className index
      .error (.fault (.kind s!"string indices must be integers, not '{name}'"))
  | .bytes content =>
    match index.int? with
    | some number =>
      match (position? content.length number).bind (content[·]?) with
      | some byte => .ok (.int byte.toNat)
      | none => .error (.fault (.position "index out of range"))
    | none =>
      let name := heap.className index
      .error (.fault (.kind s!"byte indices must be integers or slices, not {name}"))
  | object =>
    match heap.object? object with
    | some (.list elements) => heap.listItem elements index
    | some (.array elements _) => do
      heap.checkBounds elements.size index
      heap.listItem elements index
    | some (.map entries) =>
      match index.key? with
      | none => .error (.fault (.unhashable (heap.className index)))
      | some key =>
        match Map.get? key entries with
        | some value => .ok value
        | none => .error (.fault (.key ""))
    | _ => .error (heap.notSubscriptable object)

def length (heap : Heap) (value : Value) : Except Failure Nat :=
  match value with
  | .string text => .ok text.length
  | .bytes content => .ok content.length
  | value =>
    match heap.object? value with
    | some (.list elements) => .ok elements.size
    | some (.array elements _) => .ok elements.size
    | some (.map entries) => .ok entries.length
    | _ => .error (.fault (.kind s!"object of type '{heap.className value}' has no len()"))

def listPosition (heap : Heap) (length : Nat) (index : Value) : Except Failure Nat :=
  match index.int? with
  | some number =>
    match position? length number with
    | some position => .ok position
    | none => .error (.fault (.position "list assignment index out of range"))
  | none =>
    let name := heap.className index
    .error (.fault (.kind s!"list indices must be integers or slices, not {name}"))

def elementChange (address : Address) (position : Nat) (value : Value) : Change :=
  ⟨address, Object.mapElements fun elements => elements.setIfInBounds position value⟩

def entryChange (heap : Heap) (address : Address) (key value : Value) : Except Failure Change :=
  match key.key? with
  | none => .error (.fault (.unhashable (heap.className key)))
  | some key => .ok ⟨address, Object.mapEntries (Map.put key value)⟩

def itemChange (heap : Heap) (object index value : Value) : Except Failure Change :=
  match object with
  | .object address =>
    match heap.get? address with
    | some (.list elements) => do
      let position ← heap.listPosition elements.size index
      return elementChange address position value
    | some (.array elements _) => do
      heap.checkBounds elements.size index
      let position ← heap.listPosition elements.size index
      return elementChange address position value
    | some (.map _) => heap.entryChange address index value
    | _ => .error (heap.noItemAssignment object)
  | _ => .error (heap.noItemAssignment object)

def fieldOf (struct : String) (fields : List (String × Value)) (name : String) :
    Except Failure Value :=
  match Bindings.get? name fields with
  | some value => .ok value
  | none => .error (.error (.runtime (.missingField struct name) none))

def fieldChange (address : Address) (struct : String) (fields : List (String × Value))
    (name : String) (value : Value) : Except Failure Change :=
  if (Bindings.get? name fields).isSome then
    .ok ⟨address, Object.mapFields (Bindings.put name value)⟩
  else
    .error (.error (.runtime (.missingField struct name) none))

def entryOrNull (heap : Heap) (entries : List (Key × Value)) (key : Value) :
    Except Failure Value :=
  match key.key? with
  | none => .error (.fault (.unhashable (heap.className key)))
  | some key => .ok ((Map.get? key entries).getD .null)

def targetValue (heap : Heap) : Target → Except Failure Value
  | .value value => .ok value
  | .field object name =>
    match heap.object? object with
    | some (.struct struct fields) => fieldOf struct fields name
    | some (.map entries) => heap.entryOrNull entries (.string name)
    | _ => .ok .null
  | .key object key =>
    match key, heap.object? object with
    | .null, _ => .ok .null
    | key, some (.map entries) => heap.entryOrNull entries key
    | _, _ => .ok .null
  | .index object index =>
    match index with
    | .null => .ok .null
    | index => heap.item object index

def targetChange (heap : Heap) (address : Address) (target : Target) (value : Value) :
    Except Failure (Option Change) :=
  match target with
  | .value _ => .ok (some ⟨address, fun _ => .ref (.value value)⟩)
  | .field (.object container) name =>
    match heap.get? container with
    | some (.struct struct fields) => some <$> fieldChange container struct fields name value
    | some (.map _) => some <$> heap.entryChange container (.string name) value
    | _ => .ok none
  | .field _ _ => .ok none
  | .key object key =>
    match key, heap.object? object with
    | .null, _ => .ok none
    | key, some (.map _) => some <$> heap.itemChange object key value
    | _, _ => .ok none
  | .index object index =>
    match index with
    | .null => .ok none
    | index => some <$> heap.itemChange object index value

def targetOfPart (object : Value) (target : Target) : Target :=
  if object.isNull then .value .null else target

def follow (heap : Heap) : Nat → Value → Except Failure Value
  | 0, _ => .error .exhausted
  | depth + 1, value =>
    match heap.object? value with
    | some (.ref target) => do
      let next ← heap.targetValue target
      heap.follow depth next
    | _ => .ok value

def dereference (heap : Heap) (value : Value) : Except Failure Value :=
  heap.follow heap.depth value

end Heap

end Noxy
