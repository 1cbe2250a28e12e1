/-!
# Binary floating-point numbers

A number of the binary64 format is a sign with an infinity, no number at all, or a sign with an
exact value `mantissa * 2 ^ exponent`. In the canonical form the mantissa is below `2 ^ 53`, the
exponent is at least `-1074`, and it is `-1074` whenever the mantissa is below `2 ^ 52`.

`Binary64.ofDecimal` rounds a decimal to the nearest number of the format, ties to the even
mantissa, by exact integer arithmetic.
-/

namespace Registrar

/-- A binary64 number. -/
inductive Binary64 where
  | finite (negative : Bool) (mantissa : Nat) (exponent : Int)
  | infinity (negative : Bool)
  | nan
  deriving DecidableEq, Repr

namespace Binary64

def zero (negative : Bool) : Binary64 := .finite negative 0 (-1074)

/-! ## Rounding -/

/-- The quotient rounded to the nearest integer, a tie to the even one. -/
def roundDiv (num den : Nat) : Nat :=
  let q := num / den
  let twice := 2 * (num % den)
  if den < twice || (twice = den && q % 2 = 1) then q + 1 else q

/-- `num / den` as a fraction over `2 ^ exponent`, rounded. -/
def scaled (num den : Nat) (exponent : Int) : Nat :=
  if 0 ≤ exponent then roundDiv num (den <<< exponent.toNat)
  else roundDiv (num <<< (-exponent).toNat) den

/-- The largest exponent of a finite number. -/
def maxExponent : Int := 971

/-- The number with mantissa `m` at `exponent`, where a carry out of 53 bits moves the exponent. -/
def pack (negative : Bool) (m : Nat) (exponent : Int) : Binary64 :=
  let (m, exponent) := if m = 1 <<< 53 then (1 <<< 52, exponent + 1) else (m, exponent)
  if maxExponent < exponent then .infinity negative else .finite negative m exponent

/-- Whether `num / den` is below `2 ^ exponent`. -/
def isBelow (num den : Nat) (exponent : Int) : Bool :=
  num <<< (-exponent).toNat < den <<< exponent.toNat

/-- The exponent `e` with `2 ^ e ≤ num / den < 2 ^ (e + 1)`, for positive `num` and `den`. The bit
lengths leave two candidates, and the exact quotient decides: a quotient just below a power of two
is not yet in its binade, whatever it would round to. -/
def binade (num den : Nat) : Int :=
  let e : Int := (num.log2 : Int) - (den.log2 : Int)
  if isBelow num den e then e - 1 else e

/-- The number nearest to `num / den`. -/
def ofRatio (negative : Bool) (num den : Nat) : Binary64 :=
  if num = 0 then zero negative
  else
    let exponent := max (binade num den - 52) (-1074)
    pack negative (scaled num den exponent) exponent

/-- The number of decimal digits of a positive number. -/
def decimalLength (n : Nat) : Nat := (Nat.toDigits 10 n).length

/-- The number nearest to `m * 10 ^ e`. Far outside the range of the format the result is known
from the size of the decimal alone. -/
def ofDecimal (negative : Bool) (m : Nat) (e : Int) : Binary64 :=
  if m = 0 then zero negative
  else
    let size : Int := e + decimalLength m
    if 310 < size then .infinity negative
    else if size < -330 then zero negative
    else if 0 ≤ e then ofRatio negative (m * Nat.pow 10 e.toNat) 1
    else ofRatio negative m (Nat.pow 10 (-e).toNat)

/-! ## Views -/

/-- The interchange encoding. -/
def toBits : Binary64 → Nat
  | .nan => 0x7ff8000000000000
  | .infinity negative => (if negative then 1 <<< 63 else 0) + 0x7ff0000000000000
  | .finite negative m e =>
    (if negative then 1 <<< 63 else 0) +
      (if m < 1 <<< 52 then m else (e + 1074).toNat <<< 52 + m)

/-- The value of a finite number that is an integer. -/
def toInt? : Binary64 → Option Int
  | .finite negative m e =>
    let magnitude? : Option Nat :=
      if 0 ≤ e then some (m <<< e.toNat)
      else if m % 1 <<< (-e).toNat = 0 then some (m >>> (-e).toNat)
      else none
    magnitude?.map fun n => if negative then -(n : Int) else n
  | _ => none

def isFinite : Binary64 → Bool
  | .finite .. => true
  | _ => false

/-- Numeric equality: the two zeros agree, and what is no number agrees with nothing. -/
def agrees : Binary64 → Binary64 → Bool
  | .finite n m e, .finite n' m' e' => (m = 0 && m' = 0) || (n = n' && m = m' && e = e')
  | .infinity n, .infinity n' => n = n'
  | _, _ => false

end Binary64

end Registrar
