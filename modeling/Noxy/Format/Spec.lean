import Noxy.Text.Digit

/-!
# Format specifications

The text after the colon of an interpolation: `[[fill]align][sign][z][#][0][width][grouping]
[.precision][type]`.
-/

namespace Noxy.Format

inductive Align where
  | left
  | right
  | center
  | afterSign
  deriving DecidableEq

inductive Sign where
  | onlyMinus
  | plus
  | space
  deriving DecidableEq

inductive Grouping where
  | comma
  | underscore
  deriving DecidableEq

structure Spec where
  fill : Char := ' '
  align : Align := .right
  signGiven : Bool := false
  sign : Sign := .onlyMinus
  noNegativeZero : Bool := false
  alternate : Bool := false
  width : Option Nat := none
  grouping : Option Grouping := none
  precision : Option Nat := none
  type : Option Char := none

def Align.ofChar? : Char → Option Align
  | '<' => some .left
  | '>' => some .right
  | '^' => some .center
  | '=' => some .afterSign
  | _ => none

def Sign.ofChar? : Char → Option Sign
  | '+' => some .plus
  | '-' => some .onlyMinus
  | ' ' => some .space
  | _ => none

def readAlign : List Char → Option Char × Option Align × List Char
  | fill :: mark :: rest =>
    match Align.ofChar? mark with
    | some align => (some fill, some align, rest)
    | none =>
      match Align.ofChar? fill with
      | some align => (none, some align, mark :: rest)
      | none => (none, none, fill :: mark :: rest)
  | [mark] =>
    match Align.ofChar? mark with
    | some align => (none, some align, [])
    | none => (none, none, [mark])
  | [] => (none, none, [])

def readMark (mark : Char) : List Char → Bool × List Char
  | c :: rest => if c = mark then (true, rest) else (false, c :: rest)
  | [] => (false, [])

def maxCount : Nat :=
  0x7FFFFFFFFFFFFFFF

def readCount? (text : List Char) : Option (Option Nat × List Char) :=
  let digits := text.takeWhile fun c => (Text.decimalValue? c).isSome
  let rest := text.drop digits.length
  if digits.isEmpty then some (none, text)
  else
    let value := digits.foldl (fun total c => total * 10 + (Text.decimalValue? c).getD 0) 0
    if maxCount < value then none else some (some value, rest)

def readGrouping? (text : List Char) : Option (Option Grouping × List Char) :=
  match text with
  | ',' :: '_' :: _ => none
  | ',' :: rest => some (some .comma, rest)
  | '_' :: ',' :: _ => none
  | '_' :: rest => some (some .underscore, rest)
  | _ => some (none, text)

def Grouping.allowedFor (grouping : Grouping) : Option Char → Bool
  | none => true
  | some type =>
    "deEfFgG%".toList.contains type ||
      (grouping == .underscore && "boxX".toList.contains type)

def Spec.read? (text : List Char) : Option Spec := do
  let (fill, align, text) := readAlign text
  let (sign, text) :=
    match text with
    | c :: rest =>
      match Sign.ofChar? c with
      | some sign => (some sign, rest)
      | none => (none, text)
    | [] => (none, [])
  let (noNegativeZero, text) := readMark 'z' text
  let (alternate, text) := readMark '#' text
  let (zeroPadded, text) := if fill.isSome then (false, text) else readMark '0' text
  let (width, text) ← readCount? text
  let (grouping, text) ← readGrouping? text
  let (hasPrecision, text) := readMark '.' text
  let (precision, text) ← if hasPrecision then readCount? text else some (none, text)
  if hasPrecision && precision.isNone then none
  else
    let type ← match text with
      | [] => some none
      | [c] => some (some c)
      | _ => none
    if !((grouping.map fun mark => mark.allowedFor type).getD true) then none
    else
      return {
        fill := fill.getD (if zeroPadded then '0' else ' ')
        align := align.getD (if zeroPadded then .afterSign else .right)
        signGiven := sign.isSome
        sign := sign.getD .onlyMinus
        noNegativeZero
        alternate
        width
        grouping
        precision
        type }

end Noxy.Format
