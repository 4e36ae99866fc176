import Noxy.Format.Directive
import Noxy.Heap.Item
import Noxy.Heap.Text
import Noxy.Number.Word

/-!
# Templates filled with a value

A text or byte sequence can be filled with one value: each directive in it is replaced by the value,
or by the part of the value that the directive names.
-/

namespace Noxy.Heap

def asciiOnly (text : List Char) : List Char :=
  text.flatMap fun c =>
    if c.toNat < 0x80 then [c]
    else if c.toNat < 0x100 then '\\' :: 'x' :: Text.hexText 2 c.toNat
    else if c.toNat < 0x10000 then '\\' :: 'u' :: Text.hexText 4 c.toNat
    else '\\' :: 'U' :: Text.hexText 8 c.toNat

def charsOfBytes (content : List UInt8) : List Char :=
  content.map fun byte => Char.ofNat byte.toNat

inductive Medium where
  | text
  | bytes
  deriving DecidableEq

def Medium.value (medium : Medium) (chars : List Char) : Value :=
  match medium with
  | .text => .string (String.ofList chars)
  | .bytes => .bytes (chars.map fun c => c.toNat.toUInt8)

/-- The value that fills a template: `current` is what the next directive uses, unless it is used up
already, and `parts` the container whose parts directives can name. -/
structure Filling where
  current : Value
  isUsed : Bool := false
  parts : Option Value := none

def hasParts (heap : Heap) (medium : Medium) (value : Value) : Bool :=
  match value, heap.object? value with
  | .bytes _, _ => medium == .text
  | _, some (.list _) => true
  | _, some (.array _ _) => true
  | _, some (.map _) => true
  | _, _ => false

def Filling.take (filling : Filling) : Except Failure (Value × Filling) :=
  if filling.isUsed then .error (.fault (.kind "not enough arguments for format string"))
  else .ok (filling.current, { filling with isUsed := true })

def Filling.select (filling : Filling) (heap : Heap) (medium : Medium) :
    Format.PartKey → Except Failure Filling
  | .absent => .ok filling
  | key =>
    match filling.parts, key with
    | some parts, .named name => do
      let current ← heap.item parts (medium.value name)
      return { filling with current, isUsed := false }
    | some _, _ => .error (.fault (.value "incomplete format key"))
    | none, _ => .error (.fault (.kind "format requires a mapping"))

def Filling.count (filling : Filling) (limit : Nat) (limitText tooLarge : String) :
    Format.Amount → Except Failure (Option Int × Filling)
  | .absent => .ok (none, filling)
  | .omitted => .ok (some 0, filling)
  | .written count => .ok (some count, filling)
  | .tooLarge => .error (.fault (.value tooLarge))
  | .taken => do
    let (value, filling) ← filling.take
    match value.int? with
    | none => .error (.fault (.kind "* wants int"))
    | some count =>
      if count < -(limit : Int) - 1 ∨ (limit : Int) < count then
        .error (.fault (.overflow s!"Python int too large to convert to C {limitText}"))
      else
        return (some count, filling)

def requestedInt (heap : Heap) (request : Format.Request) (value : Value) : Except Failure Int :=
  let isDecimal := "diu".toList.contains request.letter
  match value.numeric? with
  | some (.int number) => .ok number
  | some (.float number) =>
    if isDecimal then
      match Number.truncate? number with
      | some number => .ok number
      | none =>
        if number.isNaN then .error (.fault (.value "cannot convert float NaN to integer"))
        else .error (.fault (.overflow "cannot convert float infinity to integer"))
    else refuse "an integer"
  | none => refuse (if isDecimal then "a real number" else "an integer")
where
  refuse (expected : String) : Except Failure Int :=
    let letter := String.singleton request.letter
    let name := heap.className value
    .error (.fault (.kind s!"%{letter} format: {expected} is required, not {name}"))

def requestedFloat (heap : Heap) (medium : Medium) (value : Value) : Except Failure Float :=
  let name := heap.className value
  match medium, value.numeric? with
  | .text, some number => number.toFloat.mapError .fault
  | .text, none => .error (.fault (.kind s!"must be real number, not {name}"))
  | .bytes, number =>
    match number.map Numeric.toFloat with
    | some (.ok number) => .ok number
    | _ => .error (.fault (.kind s!"float argument required, not {name}"))

def requestedChar (medium : Medium) (value : Value) : Except Failure Char :=
  match medium, value, value.int? with
  | .text, .string text, _ =>
    match text.toList with
    | [c] => .ok c
    | _ => .error (.fault (.kind "%c requires int or char"))
  | .text, _, some code =>
    if 0 ≤ code ∧ code < 0x110000 then .ok (Char.ofNat code.toNat)
    else .error (.fault (.overflow "%c arg not in range(0x110000)"))
  | .text, _, none => .error (.fault (.kind "%c requires int or char"))
  | .bytes, .bytes [byte], _ => .ok (Char.ofNat byte.toNat)
  | .bytes, _, some code =>
    if 0 ≤ code ∧ code < 256 then .ok (Char.ofNat code.toNat)
    else .error (.fault (.overflow "%c arg not in range(256)"))
  | .bytes, _, none =>
    .error (.fault (.kind "%c requires an integer in range(256) or a single byte"))

def requestedContent (heap : Heap) (medium : Medium) (value : Value) :
    Except Failure (List Char) :=
  match medium, value with
  | .text, value => do return (← heap.plain value).toList
  | .bytes, .bytes content => .ok (charsOfBytes content)
  | .bytes, value =>
    let name := heap.className value
    .error (.fault (.kind ("%b requires a bytes-like object, " ++
      s!"or an object that implements __bytes__, not '{name}'")))

def unknownLetter (letter : Char) (place : Nat) : Failure :=
  let shown := String.singleton (if 31 ≤ letter.toNat ∧ letter.toNat ≤ 126 then letter else '?')
  let code := String.ofList (Nat.toDigits 16 letter.toNat)
  .fault (.value s!"unsupported format character '{shown}' (0x{code}) at index {place}")

def requested (heap : Heap) (medium : Medium) (request : Format.Request) (place : Nat)
    (value : Value) : Except Failure (List Char) :=
  if request.isInteger then do
    let number ← heap.requestedInt request value
    if Format.maxPrecision - 3 < request.precision.getD 0 then
      .error (.fault (.overflow "precision too large"))
    else if "diu".toList.contains request.letter ∧ !Number.isWritable number then
      .error (.fault .tooManyDigits)
    else
      return request.integerText number
  else if request.isFloat then do
    return request.floatText (← heap.requestedFloat medium value)
  else
    match request.letter, medium with
    | 's', _ => heap.requestedContent medium value
    | 'b', .bytes => heap.requestedContent medium value
    | 'r', .text => do return (← heap.quoted value).toList
    | 'r', .bytes => do return asciiOnly (← heap.quoted value).toList
    | 'a', _ => do return asciiOnly (← heap.quoted value).toList
    | 'c', _ => do return [← requestedChar medium value]
    | letter, _ => .error (unknownLetter letter place)

/-- The text that replaces a directive, and the filling left for the next one.  In a byte template a
letter beyond seven bits that stands right after a written count is an unknown one; anywhere else it
is not even a character. -/
def filledDirective (heap : Heap) (medium : Medium) (directive : Format.Directive)
    (filling : Filling) : Except Failure (List Char × Filling) := do
  let filling ← filling.select heap medium directive.key
  let (width, filling) ← filling.count Format.maxCount "ssize_t" "width too big" directive.width
  let (precision, filling) ← filling.count Format.maxPrecision "int" "precision too big"
    directive.precision
  match directive.letter with
  | none => .error (.fault (.value "incomplete format"))
  | some (letter, place) =>
    let marks := if width.getD 0 < 0 then '-' :: directive.marks else directive.marks
    let request : Format.Request :=
      ⟨marks, width.map Int.natAbs, precision.map Int.toNat, letter⟩
    let (value, filling) ← filling.take
    if medium = .bytes ∧ 0x80 ≤ letter.toNat ∧ !directive.endsInCount then
      throw (.fault (.overflow "character argument not in range(0x110000)"))
    let text ← heap.requested medium request place value
    return (request.layout text, filling)

def filledSegments (heap : Heap) (medium : Medium) :
    List Format.Segment → Filling → Except Failure (List Char × Filling)
  | [], filling => .ok ([], filling)
  | .char c :: segments, filling => do
    let (text, filling) ← heap.filledSegments medium segments filling
    return (c :: text, filling)
  | .directive directive :: segments, filling => do
    let (shown, filling) ← heap.filledDirective medium directive filling
    let (text, filling) ← heap.filledSegments medium segments filling
    return (shown ++ text, filling)

def fill (heap : Heap) (medium : Medium) (template : List Char) (value : Value) :
    Except Failure Value := do
  let parts := if heap.hasParts medium value then some value else none
  let filling : Filling := { current := value, parts }
  let (text, filling) ← heap.filledSegments medium (Format.segments template) filling
  if filling.isUsed || filling.parts.isSome then
    return medium.value text
  else
    let name := match medium with
      | .text => "string"
      | .bytes => "bytes"
    .error (.fault (.kind s!"not all arguments converted during {name} formatting"))

end Noxy.Heap
