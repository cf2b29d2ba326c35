import Listing.Number.Binary64

/-!
# Shortest decimals

The fewest digits that read back to a given binary64 number, and the nearest such decimal when there
are several. `Decimal` is the exact decimal; how it is written (where the point stands, when an
exponent is used) is a matter of the writer.
-/

namespace Listing

/-- The decimal `digits · 10 ^ exponent`. -/
structure Decimal where
  digits : Nat
  exponent : Int
deriving DecidableEq, Inhabited

namespace Decimal

/-- Drops trailing zeros, at most `fuel` of them. -/
def dropZeros : Nat → Decimal → Decimal
  | 0, d => d
  | fuel + 1, d =>
    if d.digits ≠ 0 ∧ d.digits % 10 = 0 then dropZeros fuel ⟨d.digits / 10, d.exponent + 1⟩ else d

/-- The integer part of the decimal logarithm of `num / den`, for positive arguments: an estimate
from the binary logarithms, mended by at most one step either way. -/
def ratioLog10 (num den : Nat) : Int :=
  let guess : Int := Int.fdiv (((num.log2 : Int) - den.log2) * 30103) 100000
  let reaches (k : Int) : Bool := den * Nat.pow 10 k.toNat ≤ num * Nat.pow 10 (-k).toNat
  if reaches (guess + 1) then guess + 1 else if reaches guess then guess else guess - 1

/-- The reals that round to a finite number, scaled to integers over `den`: the number itself, its
lower and upper end, and whether the ends belong to it. -/
structure Interval where
  value : Nat
  low : Nat
  high : Nat
  den : Nat
  closed : Bool

/-- The interval of the positive number `mantissa · 2 ^ exponent`. The gap below a power of two is
half as wide as the gap above it, unless the number is subnormal. -/
def Interval.of (mantissa : Nat) (exponent : Int) : Interval :=
  let scale := Nat.pow 2 (exponent - 2).toNat
  let below := if mantissa = Nat.pow 2 52 ∧ Binary64.minExponent < exponent then 1 else 2
  { value := 4 * mantissa * scale
    low := (4 * mantissa - below) * scale
    high := (4 * mantissa + 2) * scale
    den := Nat.pow 2 (2 - exponent).toNat
    closed := mantissa % 2 = 0 }

def Interval.contains (i : Interval) (n : Nat) (k : Int) : Bool :=
  let x := n * Nat.pow 10 k.toNat * i.den
  let unit := Nat.pow 10 (-k).toNat
  if i.closed then i.low * unit ≤ x && x ≤ i.high * unit else i.low * unit < x && x < i.high * unit

/-- The grid point of spacing `10 ^ k` in the interval that is nearest to its number, if there is
one; only the two neighbours of the number need a look. -/
def Interval.nearest? (i : Interval) (k : Int) : Option Decimal :=
  let num := i.value * Nat.pow 10 (-k).toNat
  let den := i.den * Nat.pow 10 k.toNat
  let n := num / den
  let r := num % den
  match i.contains n k, i.contains (n + 1) k with
  | true, true =>
    if 2 * r < den ∨ (2 * r = den ∧ n % 2 = 0) then some ⟨n, k⟩ else some ⟨n + 1, k⟩
  | true, false => some ⟨n, k⟩
  | false, true => some ⟨n + 1, k⟩
  | false, false => none

/-- The shortest decimal of the positive finite number `mantissa · 2 ^ exponent`: of 1, 2, … 17
digits the first count whose grid meets the interval. -/
def shortest (mantissa : Nat) (exponent : Int) : Decimal :=
  let i := Interval.of mantissa exponent
  let top := ratioLog10 i.value i.den
  let found := (List.range 17).findSome? fun n : Nat => i.nearest? (top - n)
  dropZeros 17 (found.getD ⟨0, 0⟩)

/-- A positive ratio rounded to a count of significant digits, a half going up. -/
def ofRatio (count : Nat) (num den : Nat) : Decimal :=
  let k := ratioLog10 num den + 1 - count
  let num := num * Nat.pow 10 (-k).toNat
  let den := den * Nat.pow 10 k.toNat
  dropZeros (count + 1) ⟨(2 * num + den) / (2 * den), k⟩

/-- How a decimal is written: positionally when the exponent of its first digit lies in a range,
else with a mark and an exponent of at least two digits; a whole number keeps one zero after the
point where the writer asks for it. -/
structure Format where
  leastExponent : Int
  exponentLimit : Int
  pointInScientific : Bool

def zeros (n : Nat) : List Char := List.replicate n '0'

def Format.write (f : Format) (d : Decimal) : List Char :=
  let digits := (toString d.digits).toList
  let first : Int := d.exponent + digits.length - 1
  if f.leastExponent ≤ first ∧ first < f.exponentLimit then
    if 0 ≤ d.exponent then digits ++ zeros d.exponent.toNat ++ ['.', '0']
    else if 0 ≤ first then
      digits.take (first.toNat + 1) ++ '.' :: digits.drop (first.toNat + 1)
    else '0' :: '.' :: zeros (-first - 1).toNat ++ digits
  else
    let tail := digits.drop 1
    let point := if tail.isEmpty then (if f.pointInScientific then ['.', '0'] else []) else '.' :: tail
    let size := (toString first.natAbs).toList
    digits.take 1 ++ point ++ 'e' :: (if first < 0 then '-' else '+') ::
      ((if size.length < 2 then ['0'] else []) ++ size)

end Decimal

/-- Floating-point numbers are written positionally from `1e-4` up to `1e16`. -/
def Binary64.format : Decimal.Format := ⟨-4, 16, false⟩

/-- The text of a floating-point number: the shortest decimal that reads back. -/
def Binary64.display : Binary64 → String
  | .nan => "nan"
  | .infinite negative => if negative then "-inf" else "inf"
  | .finite negative m e =>
    let sign := if negative then ['-'] else []
    String.ofList (sign ++
      if m = 0 then ['0', '.', '0'] else Binary64.format.write (Decimal.shortest m e))

end Listing
