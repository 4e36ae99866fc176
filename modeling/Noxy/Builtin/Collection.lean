import Noxy.Builtin.Conversion

/-!
# Arrays and maps

The functions on arrays and maps.
-/

namespace Noxy.Builtin

def elements? (value : Value) : Exec (Option (Array Value)) := do
  match ← Exec.object? value with
  | some (.list elements) => return some elements
  | some (.array elements _) => return some elements
  | _ => return none

def changeElements (value : Value) (change : Array Value → Array Value) : Exec Unit :=
  match value with
  | .object address => Exec.apply ⟨address, Object.mapElements change⟩
  | _ => pure ()

def length (value : Value) : Exec Value := do
  match value with
  | .string text => return .int text.length
  | .bytes content => return .int content.length
  | value =>
    match ← Exec.object? value with
    | some (.list elements) => return .int elements.size
    | some (.array elements _) => return .int elements.size
    | some (.map entries) => return .int entries.length
    | _ => Exec.fail (.noLength (← Exec.look fun heap => heap.fullClassName value))

def positionOf? (elements : Array Value) (item : Value) : Exec (Option Nat) :=
  Exec.look fun heap => elements.findIdx? fun element => heap.equalElements element item

def remove (array item : Value) : Exec Value := do
  match ← elements? array with
  | none => Exec.fail (.notRemovable (← Exec.look fun heap => heap.fullClassName array))
  | some elements =>
    match ← positionOf? elements item with
    | some position => changeElements array fun elements => elements.eraseIdxIfInBounds position
    | none => pure ()
    return .null

def isArray (value : Value) : Exec Bool := do
  match ← Exec.object? value with
  | some (.list _) => return true
  | some (.array _ _) => return true
  | _ => return false

def append (array item : Value) : Exec Value := do
  if ← isArray array then
    changeElements array fun elements => elements.push item
    return .null
  else
    wrongArgument "append" "array" array

def last? (array : Value) : Exec (Option Value) :=
  Exec.look fun heap =>
    match heap.object? array with
    | some (.list elements) => elements.back?
    | some (.array elements _) => elements.back?
    | _ => none

def pop (array : Value) : Exec Value := do
  if ← isArray array then
    match ← last? array with
    | none => Exec.fail .popEmpty
    | some element =>
      changeElements array fun elements => elements.pop
      return element
  else
    wrongArgument "pop" "array" array

def contains (array item : Value) : Exec Value := do
  match ← elements? array with
  | none => wrongArgument "contains" "array" array
  | some elements => return .bool (← positionOf? elements item).isSome

def entriesOf (function : String) (value : Value) : Exec (List (Key × Value)) := do
  match ← Exec.object? value with
  | some (.map entries) => return entries
  | _ => wrongArgument function "map" value

def keyOf (value : Value) : Exec Key := do
  match value.key? with
  | some key => return key
  | none => Exec.fault (.unhashable (← Exec.look fun heap => heap.className value))

def keys (mapping : Value) : Exec Value := do
  let entries ← entriesOf "keys" mapping
  Exec.list (entries.map fun entry => entry.1.value)

def hasKey (mapping key : Value) : Exec Value := do
  let entries ← entriesOf "has_key" mapping
  return .bool (Map.get? (← keyOf key) entries).isSome

def delete (mapping key : Value) : Exec Value := do
  let _ ← entriesOf "delete" mapping
  let key ← keyOf key
  match mapping with
  | .object address => Exec.apply ⟨address, Object.mapEntries (Map.remove key)⟩
  | _ => pure ()
  return .null

def maxZeros : Nat :=
  100000

def shown (value : Value) : Exec String :=
  Exec.view fun heap => heap.plain value

def zeros (value : Value) : Exec Value := do
  match value.int? with
  | none => wrongArgument "zeros" "int" value
  | some size =>
    if size < 0 then
      Exec.fail (.zerosNegative (← shown value))
    else if maxZeros < size then
      Exec.fail (.zerosTooLarge maxZeros (← shown value))
    else
      Exec.alloc (.list (.replicate size.toNat (.int 0)))

def collections : List Builtin :=
  [plain "length" "noxy_length" ["obj"] (unary length),
    plain "zeros" "noxy_zeros" ["n"] (unary zeros),
    plain "remove" "noxy_remove" ["array", "item"] (binary remove),
    plain "append" "noxy_append" ["array", "item"] (binary append),
    plain "pop" "noxy_pop" ["array"] (unary pop),
    plain "keys" "noxy_keys" ["mapping"] (unary keys),
    plain "has_key" "noxy_has_key" ["mapping", "key"] (binary hasKey),
    plain "delete" "noxy_delete" ["mapping", "key"] (binary delete),
    plain "contains" "noxy_contains" ["array", "item"] (binary contains)]

end Noxy.Builtin
