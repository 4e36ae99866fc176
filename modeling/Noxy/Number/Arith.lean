import Noxy.Number.Binary64

/-!
# Arithmetic between integers and doubles

Comparison of an integer with a double is exact.
-/

namespace Noxy.Number

def compareIntFloat (n : Int) (x : Float) : Option Ordering :=
  match parts x with
  | .nan => none
  | .infinite negative => some (if negative then .gt else .lt)
  | .finite negative mantissa exponent =>
    let ratio := magnitude mantissa exponent
    let signed : Int := if negative then -(ratio.num : Int) else ratio.num
    some (compare (n * ratio.den) signed)

def compareFloats (x y : Float) : Option Ordering :=
  if x < y then some .lt
  else if y < x then some .gt
  else if x == y then some .eq
  else none

def truncate? (x : Float) : Option Int :=
  match parts x with
  | .finite negative mantissa exponent =>
    let ratio := magnitude mantissa exponent
    let whole : Int := ratio.num / ratio.den
    some (if negative then -whole else whole)
  | _ => none

def wholeValue? (x : Float) : Option Int :=
  match parts x with
  | .finite negative mantissa exponent =>
    let ratio := magnitude mantissa exponent
    if ratio.num % ratio.den = 0 then
      let whole : Int := ratio.num / ratio.den
      some (if negative then -whole else whole)
    else none
  | _ => none

def truncatedRemainder (x y : Float) : Float :=
  match parts x, parts y with
  | .finite negative mantissa exponent, .finite _ divisor unit =>
    if divisor = 0 then notANumber
    else
      let least := min exponent unit
      let dividend := mantissa * Nat.pow 2 (exponent - least).toNat
      let modulus := divisor * Nat.pow 2 (unit - least).toNat
      Ratio.toFloat negative (Ratio.scale (dividend % modulus) 2 least)
  | .finite _ _ _, .infinite _ => x
  | _, _ => notANumber

def floorRemainder (x y : Float) : Float :=
  let remainder := truncatedRemainder x y
  if remainder == 0 then Ratio.toFloat (isNegative y) ⟨0, 1⟩
  else if (y < 0) != (remainder < 0) then remainder + y
  else remainder

def floorQuotient (x y : Float) : Float :=
  let remainder := truncatedRemainder x y
  let quotient := (x - remainder) / y
  let quotient := if remainder != 0 && (y < 0) != (remainder < 0) then quotient - 1 else quotient
  if quotient == 0 then
    x / y * 0
  else
    let rounded := quotient.floor
    if 0.5 < quotient - rounded then rounded + 1 else rounded

end Noxy.Number
