import Noxy.Builtin.Collection

/-!
# Handles in values

Open things appear in programs as struct instances, or maps, that hold a handle.
-/

namespace Noxy.Builtin

def partOf (value : Value) (name : String) : Exec (Bool × Value) := do
  match ← Exec.object? value with
  | some (.struct _ fields) => return (true, (Bindings.get? name fields).getD .null)
  | some (.map entries) => return (true, (Map.get? (.string name) entries).getD .null)
  | _ => return (false, .null)

def isFilled (heap : Heap) (value : Value) : Bool :=
  match value with
  | .null => false
  | .bool flag => flag
  | .int number => number ≠ 0
  | .float number => number != 0
  | .string text => !text.isEmpty
  | .bytes content => !content.isEmpty
  | value =>
    match heap.object? value with
    | some (.list elements) => !elements.isEmpty
    | some (.array elements _) => !elements.isEmpty
    | some (.map entries) => !entries.isEmpty
    | _ => true

def openHandle? (handles : Handles α) (value : Value) : Exec (Option Nat) := do
  if value.isNull then
    return none
  else
    let key ← keyOf value
    return (handles.entries.find? fun entry => key.same (.int entry.1)).map Prod.fst

def handleIn? (handles : Handles α) (value : Value) (name : String) : Exec (Option Nat) := do
  let (_, handle) ← partOf value name
  openHandle? handles handle

def setPart (value : Value) (name : String) (part : Value) : Exec Unit := do
  match value with
  | .object address =>
    Exec.apply ⟨address, fun object =>
      match object with
      | .struct struct fields => .struct struct (Bindings.put name part fields)
      | .map entries => .map (Map.put (.string name) part entries)
      | object => object⟩
  | _ => pure ()

end Noxy.Builtin
