import Noxy.Builtin
import Noxy.Text.Search

/-!
# Printing and conversions

Printing, and the functions that turn values into texts, numbers and bytes.
-/

namespace Noxy.Builtin

def print (arguments : List Value) : Exec Value := do
  let texts ← arguments.mapM fun value => Exec.view fun heap => heap.display value
  Exec.write (" ".intercalate texts ++ "\n")
  return .null

def toStr (value : Value) : Exec Value := do
  return .string (← Exec.view fun heap => heap.display value)

def notNumeral (text target : String) : Exec α :=
  Exec.fail (.notConvertible ("'" ++ text ++ "'") target)

def notConvertible (value : Value) (target : String) : Exec α := do
  Exec.fail (.notConvertible (← Exec.look fun heap => heap.className value) target)

def toInt (value : Value) : Exec Value :=
  match value with
  | .float number =>
    match Number.truncate? number with
    | some whole => pure (.int whole)
    | none => Exec.fault (.overflow "cannot convert float infinity to integer")
  | .nan _ => Exec.fault (.value "cannot convert float NaN to integer")
  | .int number => pure (.int number)
  | .bool flag => pure (.bool flag)
  | .string text =>
    match Number.readInt 10 text.toList with
    | .ok number => pure (.int number)
    | .error _ => notNumeral text "int"
  | value => notConvertible value "int"

def toFloat (value : Value) : Exec Value :=
  match value.float?, value.numeric?, value with
  | some _, _, _ => pure value
  | none, some number, _ => do
    Exec.number (← Exec.ofExcept (number.toFloat.mapError .fault))
  | none, none, .string text =>
    match Number.readFloat? text.toList with
    | some number => Exec.number number
    | none => notNumeral text "float"
  | none, none, value => notConvertible value "float"

def bytesOfElements : List Value → Exec (List UInt8)
  | [] => pure []
  | value :: rest => do
    match value.int? with
    | none =>
      let name ← Exec.look fun heap => heap.className value
      Exec.fault (.kind s!"'{name}' object cannot be interpreted as an integer")
    | some number =>
      if 0 ≤ number ∧ number < 256 then
        let more ← bytesOfElements rest
        return UInt8.ofNat number.toNat :: more
      else
        Exec.fail .byteArray

def toBytes (value : Value) : Exec Value := do
  match value.int?, value with
  | _, .bytes content => return .bytes content
  | _, .string text => return .bytes (Text.Utf8.encode text)
  | some number, _ =>
    if 0 ≤ number ∧ number ≤ 255 then
      return .bytes [UInt8.ofNat number.toNat]
    else
      Exec.fail (.byteRange (← Exec.ofExcept ((intText number).mapError .fault)))
  | none, value =>
    match ← Exec.object? value with
    | some (.list elements) => return .bytes (← bytesOfElements elements.toList)
    | some (.array elements _) => return .bytes (← bytesOfElements elements.toList)
    | _ => notConvertible value "bytes"

def wrongArgument (function expected : String) (value : Value) : Exec α := do
  Exec.fail (.wrongArgument function expected (← Exec.look fun heap => heap.className value))

def strlen (value : Value) : Exec Value :=
  match value with
  | .string text => pure (.int text.length)
  | value => wrongArgument "strlen" "string" value

def ord (value : Value) : Exec Value :=
  match value with
  | .string text =>
    match text.toList with
    | [c] => pure (.int c.toNat)
    | _ => Exec.fail (.wrongArgument "ord" "string de 1 caractere" ("'" ++ text ++ "'"))
  | value => wrongArgument "ord" "string" value

def substring (value start stop : Value) : Exec Value :=
  match value with
  | .string text =>
    match start.int?, stop.int? with
    | some start, some stop => pure (.string (String.ofList (Text.slice text.toList start stop)))
    | _, _ => Exec.fail (.wrongArguments "substring" "start/end inteiros")
  | value => wrongArgument "substring" "string" value

def slice (value start stop : Value) : Exec Value :=
  match value with
  | .bytes content =>
    match start.int?, stop.int? with
    | some start, some stop => pure (.bytes (Text.slice content start stop))
    | _, _ => Exec.fail (.wrongArguments "slice" "start/end inteiros")
  | value => wrongArgument "slice" "bytes" value

def conversions : List Builtin :=
  [⟨"print", "noxy_print", [], none, print⟩,
    plain "to_str" "noxy_to_str" ["value"] (unary toStr),
    plain "to_int" "noxy_to_int" ["value"] (unary toInt),
    plain "to_float" "noxy_to_float" ["value"] (unary toFloat),
    plain "to_bytes" "noxy_to_bytes" ["value"] (unary toBytes),
    plain "strlen" "noxy_strlen" ["s"] (unary strlen),
    plain "ord" "noxy_ord" ["char"] (unary ord),
    plain "substring" "noxy_substring" ["s", "start", "end"] (ternary substring),
    plain "slice" "noxy_slice" ["data", "start", "end"] (ternary slice)]

end Noxy.Builtin
