import Noxy.Format.Spec
import Noxy.Number.Digits
import Noxy.Number.Numeral
import Noxy.Number.Word

/-!
# Formatting integers and doubles

A number is laid out as sign, radix mark, grouped digits, point and remainder, and padded to the
width.
-/

namespace Noxy.Format

open Noxy.Number

inductive Failure where
  | unsupported
  | overflow (reason : String)

structure Pieces where
  negative : Bool
  radixMark : List Char
  digits : List Char
  remainder : List Char

def groupDigits (size : Nat) (separator : Char) (digits : List Char) : List Char :=
  let indexed := digits.zipIdx
  indexed.flatMap fun (digit, index) =>
    if 0 < index ∧ (digits.length - index) % size = 0 then [separator, digit] else [digit]

def paddedCount (size : Nat) (count width : Nat) : Nat :=
  let groupedLength (n : Nat) := n + (n - 1) / size
  let candidates := (List.range (width + 1)).filter fun n => count ≤ n ∧ width ≤ groupedLength n
  match candidates with
  | n :: _ => n
  | [] => count

def Spec.groups (spec : Spec) : Option (Nat × Char) :=
  spec.grouping.map fun mark =>
    let separator := match mark with
      | .comma => ','
      | .underscore => '_'
    let size := if (spec.type.map fun c => "boxX".toList.contains c).getD false then 4 else 3
    (size, separator)

def Spec.signText (spec : Spec) (negative : Bool) : List Char :=
  if negative then ['-']
  else
    match spec.sign with
    | .plus => ['+']
    | .space => [' ']
    | .onlyMinus => []

def Spec.layout (spec : Spec) (pieces : Pieces) : String :=
  let sign := spec.signText pieces.negative
  let fixedLength := sign.length + pieces.radixMark.length + pieces.remainder.length
  let width := spec.width.getD 0
  let zeroWidth := if spec.fill = '0' ∧ spec.align = .afterSign then width - fixedLength else 0
  let grouped :=
    if pieces.digits.isEmpty then []
    else
      match spec.groups with
      | some (size, separator) =>
        let count := paddedCount size pieces.digits.length zeroWidth
        groupDigits size separator (zeros (count - pieces.digits.length) ++ pieces.digits)
      | none => zeros (zeroWidth - pieces.digits.length) ++ pieces.digits
  let padding := width - (fixedLength + grouped.length)
  let pad (count : Nat) := List.replicate count spec.fill
  let body := grouped ++ pieces.remainder
  String.ofList <|
    match spec.align with
    | .left => sign ++ pieces.radixMark ++ body ++ pad padding
    | .right => pad padding ++ sign ++ pieces.radixMark ++ body
    | .center =>
      pad (padding / 2) ++ sign ++ pieces.radixMark ++ body ++ pad (padding - padding / 2)
    | .afterSign => sign ++ pieces.radixMark ++ pad padding ++ body

def generalText (ratio : Ratio) (precision : Nat) (alternate shown : Bool) : List Char :=
  let value := ratio.significant precision
  let limit : Int := if shown then precision - 1 else precision
  if value.point ≤ -4 ∨ limit < value.point then
    value.scientific (if alternate then precision - 1 else 0) alternate
  else
    let places : Nat := if alternate then (precision - value.point).toNat else 0
    value.positional (if shown then max places 1 else places) alternate

def magnitudeText (ratio : Ratio) (type : Option Char) (precision : Option Nat)
    (alternate : Bool) : Option (List Char) :=
  match type with
  | none =>
    match precision with
    | none =>
      let text := ratio.shortestText
      let text :=
        if alternate ∧ ¬ text.contains '.' then
          text.takeWhile (· != 'e') ++ '.' :: text.dropWhile (· != 'e')
        else text
      some text
    | some places => some (generalText ratio (max places 1) alternate true)
  | some 'e' =>
    let places := precision.getD 6
    some ((ratio.significant (places + 1)).scientific places alternate)
  | some 'f' =>
    let places := precision.getD 6
    some ((ratio.fixed places).positional places alternate)
  | some 'g' => some (generalText ratio (max (precision.getD 6) 1) alternate false)
  | _ => none

def isZeroText (text : List Char) : Bool :=
  (text.takeWhile (· != 'e')).all fun c => c == '0' || c == '.'

def floatStyle? : Option Char → Option (Option Char × Bool × Bool)
  | none => some (none, false, false)
  | some 'e' => some (some 'e', false, false)
  | some 'E' => some (some 'e', true, false)
  | some 'f' => some (some 'f', false, false)
  | some 'F' => some (some 'f', true, false)
  | some 'g' => some (some 'g', false, false)
  | some 'G' => some (some 'g', true, false)
  | some 'n' => some (some 'g', false, false)
  | some '%' => some (some 'f', false, true)
  | some _ => none

def splitDigits (text : List Char) : List Char × List Char :=
  (text.takeWhile Char.isDigit, text.dropWhile Char.isDigit)

def Spec.formatFloat (spec : Spec) (x : Float) : Except Failure String :=
  match floatStyle? spec.type with
  | none => .error .unsupported
  | some (type, upper, percent) =>
    let x := if percent then x * 100 else x
    let finish (negative : Bool) (text : List Char) : String :=
      let text := if upper then text.map Char.toUpper else text
      let text := if percent then text ++ ['%'] else text
      let (digits, remainder) := splitDigits text
      spec.layout ⟨negative, [], digits, remainder⟩
    match parts x with
    | .nan => .ok (finish false "nan".toList)
    | .infinite negative => .ok (finish negative "inf".toList)
    | .finite negative mantissa exponent =>
      match magnitudeText (magnitude mantissa exponent) type spec.precision spec.alternate with
      | none => .error .unsupported
      | some text => .ok (finish (negative && !(spec.noNegativeZero && isZeroText text)) text)

def radix? : Option Char → Option (Nat × List Char × Bool)
  | none => some (10, [], false)
  | some 'd' => some (10, [], false)
  | some 'n' => some (10, [], false)
  | some 'b' => some (2, ['0', 'b'], false)
  | some 'o' => some (8, ['0', 'o'], false)
  | some 'x' => some (16, ['0', 'x'], false)
  | some 'X' => some (16, ['0', 'X'], true)
  | some _ => none

def Spec.formatChar (spec : Spec) (n : Int) : Except Failure String :=
  if spec.precision.isSome || spec.noNegativeZero || spec.signGiven || spec.alternate then
    .error .unsupported
  else if !fitsWord n then
    .error (.overflow "Python int too large to convert to C long")
  else if n < 0 ∨ 0x10FFFF < n then .error (.overflow "%c arg not in range(0x110000)")
  else .ok (spec.layout ⟨false, [], [], [Char.ofNat n.toNat]⟩)

def Spec.formatInt (spec : Spec) (n : Int) : Except Failure String :=
  match spec.type with
  | some 'c' => spec.formatChar n
  | type =>
    match radix? type with
    | some (base, mark, upper) =>
      if spec.precision.isSome || spec.noNegativeZero then .error .unsupported
      else if base = 10 ∧ !isWritable n then .error .unsupported
      else
        let digits := if base = 10 then natDigits n.natAbs else Nat.toDigits base n.natAbs
        let digits := if upper then digits.map Char.toUpper else digits
        .ok (spec.layout ⟨n < 0, if spec.alternate then mark else [], digits, []⟩)
    | none =>
      match floatStyle? type with
      | none => .error .unsupported
      | some _ =>
        match ofInt? n with
        | some x => spec.formatFloat x
        | none => .error (.overflow "int too large to convert to float")

end Noxy.Format
