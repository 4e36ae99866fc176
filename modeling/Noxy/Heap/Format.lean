import Noxy.Format.Number
import Noxy.Heap.Text

/-!
# Values in templates

The text of a value under a format specification.
-/

namespace Noxy.Heap

def widthOf (spec : String) : Except Failure Nat :=
  match Number.readInt 10 spec.toList with
  | .ok width => .ok width.toNat
  | .error .malformed =>
    let shown := Text.quoted spec
    .error (.fault (.value s!"invalid literal for int() with base 10: {shown}"))
  | .error (.tooLong digits) =>
    .error (.fault (.value ("Exceeds the limit (4300 digits) for integer string conversion: " ++
      s!"value has {digits} digits; use sys.set_int_max_str_digits() to increase the limit")))

def rightAligned (fill : Char) (number : Int) (width : Nat) : Except Failure String :=
  if Format.maxCount < width then
    .error (.fault (.value "Too many decimal digits in format string"))
  else
    match Format.Spec.formatInt { fill, width := some width } number with
    | .ok text => .ok text
    | .error _ => .error (.fault .tooManyDigits)

def formattedOr (heap : Heap) (value : Value) (result : Except Format.Failure String) :
    Except Failure String :=
  match result with
  | .ok text => .ok text
  | .error .unsupported => heap.plain value
  | .error (.overflow reason) => .error (.fault (.overflow reason))

/-- The text under a format of the general form; a value without one is shown plainly. -/
def formattedAs (heap : Heap) (value : Value) (spec : String)
    (write : Format.Spec → Except Format.Failure String) : Except Failure String :=
  if spec.isEmpty then
    heap.plain value
  else
    match Format.Spec.read? spec.toList with
    | some format => heap.formattedOr value (write format)
    | none => heap.plain value

def isDigits (text : String) : Bool :=
  !text.isEmpty && text.toList.all Text.isDigit

/-- The branch of zeros is never reached, since a format of digits only is a width whatever digit it
starts with. -/
def formattedInt (heap : Heap) (value : Value) (number : Int) (spec : String) :
    Except Failure String :=
  if spec = "x" then
    heap.formattedOr value (Format.Spec.formatInt { type := some 'x' } number)
  else if spec = "X" then
    heap.formattedOr value (Format.Spec.formatInt { type := some 'X' } number)
  else if spec = "o" then
    heap.formattedOr value (Format.Spec.formatInt { type := some 'o' } number)
  else if isDigits spec then do
    rightAligned ' ' number (← widthOf spec)
  else
    let behind := (spec.drop 1).toString
    if spec.startsWith "0" && isDigits behind then do
      rightAligned '0' number (← widthOf behind)
    else
      heap.formattedAs value spec (·.formatInt number)

def formattedBy (heap : Heap) (display : Value → Except Failure String) (value : Value)
    (spec : Option String) : Except Failure String :=
  match spec with
  | none => display value
  | some spec =>
    match value.int?, value.float? with
    | some number, _ => heap.formattedInt value number spec
    | none, some number => heap.formattedAs value spec (·.formatFloat number)
    | none, none => display value

def formatted (heap : Heap) (value : Value) (spec : Option String) : Except Failure String :=
  heap.formattedBy heap.display value spec

end Noxy.Heap
