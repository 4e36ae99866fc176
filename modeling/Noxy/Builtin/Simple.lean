import Noxy.Builtin.Table

/-!
# The simple functions

A smaller set of functions for programs that need neither bytes nor maps, and the helpers that
templates and checks are made of.
-/

namespace Noxy.Builtin

def simplePrint (arguments : List Value) : Exec Value := do
  let texts ← arguments.mapM fun value => Exec.view fun heap => heap.displayQuotingBytes value
  Exec.write (" ".intercalate texts ++ "\n")
  return .null

def simpleToStr (value : Value) : Exec Value := do
  return .string (← Exec.view fun heap => heap.displayQuotingBytes value)

def simpleLength (array : Value) : Exec Value := do
  match ← elements? array with
  | some elements => return .int elements.size
  | none => wrongArgument "length" "array" array

def simpleZeros (value : Value) : Exec Value := do
  match value.int? with
  | none => wrongArgument "zeros" "int" value
  | some size =>
    if size < 0 then Exec.fail (.zerosNegative (← shown value))
    else
      Exec.alloc (← Exec.ofExcept (Heap.zeros size))

def formatByBytes (number : Int) (format : List UInt8) : Except Failure String :=
  if !format.isEmpty && format.all (fun byte => 0x30 ≤ byte && byte ≤ 0x39) then do
    let width ← Heap.widthOf (String.ofList (Heap.charsOfBytes format))
    Heap.rightAligned ' ' number width
  else
    .error (.fault (.kind "startswith first arg must be bytes or a tuple of bytes, not str"))

def formatValue (display : Heap → Value → Except Failure String) (value format : Value) :
    Exec Value := do
  let text ← match format, value.int?, value.float? with
    | .null, _, _ => Exec.view fun heap => display heap value
    | .string format, _, _ =>
      Exec.view fun heap => heap.formattedBy (display heap) value (some format)
    | .bytes format, some number, _ => Exec.ofExcept (formatByBytes number format)
    | format, some _, _ => do
      let name ← Exec.look fun heap => heap.className format
      Exec.fault (.part s!"'{name}' object has no attribute 'isdigit'")
    | format, none, some _ => do
      let name ← Exec.look fun heap => heap.className format
      Exec.fault (.kind s!"format() argument 2 must be str, not {name}")
    | _, none, none => Exec.view fun heap => display heap value
  return .string text

def formatHelper (display : Heap → Value → Except Failure String) : Builtin :=
  ⟨"format_value", "format_value", ["value", "format_spec"], some 1, fun
    | [value] => formatValue display value .null
    | [value, format] => formatValue display value format
    | _ => pure .null⟩

def membershipHelper (set : List Builtin) : Builtin :=
  plain "is_builtin" "is_builtin" ["name"] (unary fun name => do
    let key ← keyOf name
    return .bool (set.any fun builtin => key.same (.string builtin.name)))

def simple : List Builtin :=
  [⟨"print", "noxy_print", [], none, simplePrint⟩,
    plain "to_str" "noxy_to_str" ["value"] (unary simpleToStr),
    plain "to_int" "noxy_to_int" ["value"] (unary toInt),
    plain "to_float" "noxy_to_float" ["value"] (unary toFloat),
    plain "strlen" "noxy_strlen" ["s"] (unary strlen),
    plain "ord" "noxy_ord" ["char"] (unary ord),
    plain "length" "noxy_length" ["arr"] (unary simpleLength),
    plain "zeros" "noxy_zeros" ["n"] (unary simpleZeros)]

def allWithHelpers : List Builtin :=
  all ++ [plain "value_to_string" "value_to_string" ["value"] (unary toStr),
    formatHelper Heap.display, membershipHelper all]

def simpleWithHelpers : List Builtin :=
  simple ++ [plain "value_to_string" "value_to_string" ["value"] (unary simpleToStr),
    formatHelper Heap.displayQuotingBytes, membershipHelper simple]

end Noxy.Builtin
