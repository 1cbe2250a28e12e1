import Registrar.Number.Binary64

/-!
# The shortest decimal that reads back

Of the decimals that round to a given number, `Binary64.shortest` picks one with the fewest digits,
and of those the nearest to the number. A number is surrounded by the interval of the reals that
round to it, its ends included exactly when the mantissa is even. For each digit count the two
neighbours of the number on that decimal grid are tried; if a point of a grid lies in the interval,
so does one of the two.

Positional notation is used for numbers from `1e-4` up to `1e16`, with at least one digit after the
point; beyond, the exponent has a sign and at least two digits.
-/

namespace Registrar.Binary64

/-! ## Digits -/

/-- A positive number and the interval of the reals that round to it, over a common denominator. -/
structure Interval where
  low : Nat
  value : Nat
  high : Nat
  unit : Nat
  closed : Bool
  deriving Repr

/-- The interval of `m * 2 ^ e`; the gap below a power of two is half as wide. -/
def Interval.ofFinite (m : Nat) (e : Int) : Interval :=
  let up := 1 <<< e.toNat
  let lower := if m = 1 <<< 52 && -1074 < e then 4 * m - 1 else 4 * m - 2
  ⟨lower * up, 4 * m * up, (4 * m + 2) * up, 4 <<< (-e).toNat, m % 2 = 0⟩

def Interval.contains (i : Interval) (num den : Nat) : Bool :=
  let x := num * i.unit
  if i.closed then i.low * den ≤ x && x ≤ i.high * den else i.low * den < x && x < i.high * den

/-- A decimal `digits * 10 ^ exponent`. -/
structure Decimal where
  digits : Nat
  exponent : Int
  deriving DecidableEq, Repr

/-- The numerator and denominator of a decimal. -/
def Decimal.ratio (d : Decimal) : Nat × Nat :=
  (d.digits * Nat.pow 10 d.exponent.toNat, Nat.pow 10 (-d.exponent).toNat)

/-- The neighbours of the value on the grid of multiples of `10 ^ k`, the nearer one first, and
at equal distance the even one. -/
def Interval.neighbours (i : Interval) (k : Int) : List Decimal :=
  let num := i.value * Nat.pow 10 (-k).toNat
  let den := i.unit * Nat.pow 10 k.toNat
  let q := num / den
  let r := num % den
  if r = 0 then [⟨q, k⟩]
  else if 2 * r < den || (2 * r = den && q % 2 = 0) then [⟨q, k⟩, ⟨q + 1, k⟩]
  else [⟨q + 1, k⟩, ⟨q, k⟩]

/-- The exponent `p` with `10 ^ (p - 1) ≤ value < 10 ^ p`. -/
def Interval.magnitude (i : Interval) : Int :=
  let whole := i.value / i.unit
  if whole ≠ 0 then decimalLength whole
  else
    let size := decimalLength (i.unit / i.value)
    if Nat.pow 10 (size - 1) * i.value = i.unit then 2 - size else 1 - size

/-- Tries the grids with `n`, `n + 1`, … digits. -/
def Interval.search (i : Interval) (n : Nat) : Nat → Option Decimal
  | 0 => none
  | tries + 1 =>
    let fits := (i.neighbours (i.magnitude - n)).find? fun d =>
      i.contains d.ratio.1 d.ratio.2
    match fits with
    | some d => some d
    | none => i.search (n + 1) tries

/-- Moves trailing zeros of the digits into the exponent. -/
def Decimal.trim (d : Decimal) : Nat → Decimal
  | 0 => d
  | steps + 1 =>
    if d.digits ≠ 0 && d.digits % 10 = 0 then Decimal.trim ⟨d.digits / 10, d.exponent + 1⟩ steps
    else d

/-- The shortest decimal that rounds to `m * 2 ^ e`, without trailing zeros. -/
def shortest (m : Nat) (e : Int) : Decimal :=
  let i := Interval.ofFinite m e
  match i.search 1 17 with
  | some d => d.trim 20
  | none => ⟨m, 0⟩

/-! ## Text -/

/-- The spellings of the values that have no digits. -/
structure Spelling where
  nan : String
  infinity : String

/-- The digits of a decimal with the point at its place. -/
def Decimal.text (d : Decimal) : String :=
  let ds := Nat.toDigits 10 d.digits
  let point : Int := ds.length + d.exponent
  if -4 < point && point ≤ 16 then
    if point ≤ 0 then
      String.ofList ("0.".toList ++ List.replicate (-point).toNat '0' ++ ds)
    else if (ds.length : Int) ≤ point then
      String.ofList (ds ++ List.replicate (point - ds.length).toNat '0' ++ ".0".toList)
    else
      String.ofList (ds.take point.toNat ++ '.' :: ds.drop point.toNat)
  else
    let e := point - 1
    let sign := if e < 0 then '-' else '+'
    let es := Nat.toDigits 10 e.natAbs
    let es := if es.length < 2 then '0' :: es else es
    let fraction := match ds.drop 1 with
      | [] => []
      | rest => '.' :: rest
    String.ofList (ds.take 1 ++ fraction ++ 'e' :: sign :: es)

/-- The text of a number. -/
def text (s : Spelling) : Binary64 → String
  | .nan => s.nan
  | .infinity negative => if negative then "-" ++ s.infinity else s.infinity
  | .finite negative m e =>
    let digits := if m = 0 then "0.0" else (shortest m e).text
    if negative then "-" ++ digits else digits

/-- The spellings used in messages. -/
def plainSpelling : Spelling := ⟨"nan", "inf"⟩

/-- The spellings used in JSON documents. -/
def documentSpelling : Spelling := ⟨"NaN", "Infinity"⟩

end Registrar.Binary64
