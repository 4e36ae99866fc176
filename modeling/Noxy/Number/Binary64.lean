/-!
# Doubles as exact numbers

A double is taken apart into sign, mantissa and binary exponent, and put together again from a
quotient of natural numbers by rounding to the nearest double, a tie going to the even mantissa.
-/

namespace Noxy.Number

inductive Parts where
  | nan
  | infinite (negative : Bool)
  | finite (negative : Bool) (mantissa : Nat) (exponent : Int)

structure Ratio where
  num : Nat
  den : Nat

def Ratio.scale (mantissa base : Nat) : Int → Ratio
  | .ofNat power => ⟨mantissa * base.pow power, 1⟩
  | .negSucc power => ⟨mantissa, base.pow (power + 1)⟩

def Ratio.shift (ratio : Ratio) (base : Nat) : Int → Ratio
  | .ofNat power => ⟨ratio.num * base.pow power, ratio.den⟩
  | .negSucc power => ⟨ratio.num, ratio.den * base.pow (power + 1)⟩

def signUnit : Nat :=
  0x8000000000000000

def exponentUnit : Nat :=
  0x10000000000000

def notANumber : Float :=
  Float.ofBits 0x7FF8000000000000

def infinityBits : Nat :=
  2047 * exponentUnit

def parts (x : Float) : Parts :=
  let bits := x.toBits.toNat
  let negative := bits / signUnit == 1
  let biased : Nat := bits / exponentUnit % 2048
  let fraction : Nat := bits % exponentUnit
  if biased = 2047 then
    if fraction = 0 then .infinite negative else .nan
  else if biased = 0 then .finite negative fraction (-1074)
  else .finite negative (exponentUnit + fraction) ((biased : Int) - 1075)

def Ratio.roundHalfEven (ratio : Ratio) : Nat :=
  let quotient := ratio.num / ratio.den
  let twice := 2 * (ratio.num % ratio.den)
  if twice < ratio.den then quotient
  else if ratio.den < twice then quotient + 1
  else if quotient % 2 = 0 then quotient else quotient + 1

def Ratio.unitExponent (ratio : Ratio) : Int :=
  let guess : Int := (ratio.num.log2 : Int) - ratio.den.log2 - 52
  let scaled := ratio.shift 2 (-guess)
  let exact :=
    if scaled.num / scaled.den < exponentUnit then guess - 1
    else if 2 * exponentUnit ≤ scaled.num / scaled.den then guess + 1
    else guess
  max exact (-1074)

def Ratio.toBits (ratio : Ratio) : Nat :=
  if ratio.num = 0 then 0
  else
    let exponent := ratio.unitExponent
    if 971 < exponent then infinityBits
    else
      let mantissa := (ratio.shift 2 (-exponent)).roundHalfEven
      let bits :=
        if mantissa < exponentUnit then mantissa
        else (exponent + 1075).toNat * exponentUnit + (mantissa - exponentUnit)
      min bits (infinityBits)

def Ratio.toFloat (negative : Bool) (ratio : Ratio) : Float :=
  let bits := ratio.toBits + if negative then signUnit else 0
  Float.ofBits (UInt64.ofNat bits)

def ofInt? (n : Int) : Option Float :=
  let bits := Ratio.toBits ⟨n.natAbs, 1⟩
  if bits = infinityBits then none
  else some (Ratio.toFloat (n < 0) ⟨n.natAbs, 1⟩)

def magnitude (mantissa : Nat) (exponent : Int) : Ratio :=
  Ratio.scale mantissa 2 exponent

def isNegative (x : Float) : Bool :=
  x.toBits.toNat / signUnit == 1

end Noxy.Number
