/-!
# Binary floating point

Numbers of the binary64 format, held as sign, mantissa and exponent, so that rounding, order and
arithmetic are statements about integers. Every operation takes the exact result and rounds it once,
to nearest with ties to an even mantissa.
-/

namespace Listing

/-- A number of the binary64 format; a finite one is `± mantissa · 2 ^ exponent`. Values built by
`Binary64.ofRatio` have the least exponent that the format allows for them. -/
inductive Binary64 where
  | nan
  | infinite (negative : Bool)
  | finite (negative : Bool) (mantissa : Nat) (exponent : Int)
deriving DecidableEq, Inhabited

/-- An exact number `mantissa · 2 ^ exponent`. -/
structure Dyadic where
  mantissa : Int
  exponent : Int

namespace Dyadic

/-- The mantissa of a number when it is written with a smaller or equal exponent. -/
def mantissaAt (d : Dyadic) (exponent : Int) : Int :=
  d.mantissa * Nat.pow 2 (d.exponent - exponent).toNat

/-- The order of two exact numbers, found by writing both with the smaller exponent. -/
def compare (a b : Dyadic) : Ordering :=
  let e := min a.exponent b.exponent
  Ord.compare (a.mantissaAt e) (b.mantissaAt e)

def sub (a b : Dyadic) : Dyadic :=
  let e := min a.exponent b.exponent
  ⟨a.mantissaAt e - b.mantissaAt e, e⟩

/-- The least integer that is not below an exact number. -/
def ceil (d : Dyadic) : Int :=
  if 0 ≤ d.exponent then d.mantissaAt 0
  else -(Int.fdiv (-d.mantissa) (Nat.pow 2 (-d.exponent).toNat))

/-- The integer part of an exact number, cut towards zero. -/
def trunc (d : Dyadic) : Int :=
  if 0 ≤ d.exponent then d.mantissaAt 0
  else Int.tdiv d.mantissa (Nat.pow 2 (-d.exponent).toNat)

end Dyadic

namespace Binary64

/-- The least exponent of the format, that of the subnormal numbers. -/
def minExponent : Int := -1074

def maxExponent : Int := 971

def zero (negative : Bool) : Binary64 := .finite negative 0 minExponent

/-- `num / den` rounded to an integer, a half going to the even neighbour. -/
def roundHalfEven (num den : Nat) : Nat :=
  let q := num / den
  let r := num % den
  if 2 * r < den then q else if den < 2 * r then q + 1 else if q % 2 = 0 then q else q + 1

/-- The integer part of the binary logarithm of `num / den`, for positive arguments. -/
def ratioLog2 (num den : Nat) : Int :=
  let k : Int := num.log2 - den.log2
  if den * Nat.pow 2 k.toNat ≤ num * Nat.pow 2 (-k).toNat then k else k - 1

/-- The number of the format nearest to `± num / den`. -/
def ofRatio (negative : Bool) (num den : Nat) : Binary64 :=
  if num = 0 then zero negative
  else
    let e := max minExponent (ratioLog2 num den - 52)
    let m := roundHalfEven (num * Nat.pow 2 (-e).toNat) (den * Nat.pow 2 e.toNat)
    let (m, e) := if m = Nat.pow 2 53 then (Nat.pow 2 52, e + 1) else (m, e)
    if maxExponent < e then .infinite negative else .finite negative m e

def ofDyadic (d : Dyadic) : Binary64 :=
  ofRatio (d.mantissa < 0) (d.mantissa.natAbs * Nat.pow 2 d.exponent.toNat)
    (Nat.pow 2 (-d.exponent).toNat)

def ofInt (n : Int) : Binary64 := ofRatio (n < 0) n.natAbs 1

/-- The number of the format nearest to the decimal `± digits · 10 ^ exponent`. Magnitudes far
outside the format are settled without computing the power. -/
def ofDecimal (negative : Bool) (digits : Nat) (exponent : Int) : Binary64 :=
  if digits = 0 then zero negative
  else
    let magnitude : Int := (digits.log2 : Int) * 30103 / 100000 + exponent
    if 400 < magnitude then .infinite negative
    else if magnitude < -400 then zero negative
    else ofRatio negative (digits * Nat.pow 10 exponent.toNat) (Nat.pow 10 (-exponent).toNat)

/-- The exact value of a finite number. -/
def toDyadic? : Binary64 → Option Dyadic
  | .finite negative m e => some ⟨if negative then -(m : Int) else m, e⟩
  | _ => none

def isZero : Binary64 → Bool
  | .finite _ m _ => m == 0
  | _ => false

def isNegative : Binary64 → Bool
  | .nan => false
  | .infinite negative => negative
  | .finite negative _ _ => negative

/-- The order of a number and an exact number; nothing compares with what is not a number. -/
def compareExact? (x : Binary64) (d : Dyadic) : Option Ordering :=
  match x with
  | .nan => none
  | .infinite negative => some (if negative then .lt else .gt)
  | .finite negative m e => some (Dyadic.compare ⟨if negative then -(m : Int) else m, e⟩ d)

/-- The order of two numbers; both zeros are equal, and nothing compares with what is not a
number. -/
def compare? (x y : Binary64) : Option Ordering :=
  match y with
  | .nan => none
  | .finite negative m e => x.compareExact? ⟨if negative then -(m : Int) else m, e⟩
  | .infinite negative =>
    match x with
    | .nan => none
    | .infinite n => some (if n == negative then .eq else if n then .lt else .gt)
    | .finite .. => some (if negative then .gt else .lt)

def sub (x y : Binary64) : Binary64 :=
  match x.toDyadic?, y.toDyadic? with
  | some a, some b =>
    let d := a.sub b
    if d.mantissa = 0 then zero (x.isNegative && !y.isNegative) else ofDyadic d
  | _, _ =>
    match x, y with
    | .infinite n, .infinite n' => if n == n' then .nan else x
    | .infinite _, .finite .. => x
    | .finite .., .infinite n => .infinite (!n)
    | _, _ => .nan

def neg : Binary64 → Binary64
  | .nan => .nan
  | .infinite negative => .infinite !negative
  | .finite negative m e => .finite (!negative) m e

def add (x y : Binary64) : Binary64 := x.sub y.neg

def mul (x y : Binary64) : Binary64 :=
  let negative := x.isNegative != y.isNegative
  match x, y with
  | .finite _ m e, .finite _ m' e' =>
    if m * m' = 0 then zero negative
    else ofRatio negative (m * m' * Nat.pow 2 (e + e').toNat) (Nat.pow 2 (-(e + e')).toNat)
  | .nan, _ => .nan
  | _, .nan => .nan
  | _, _ => if x.isZero || y.isZero then .nan else .infinite negative

/-- The rounded quotient, for a divisor that is not zero. -/
def div (x y : Binary64) : Binary64 :=
  let negative := x.isNegative != y.isNegative
  match x, y with
  | .finite _ m e, .finite _ m' e' =>
    if m = 0 then zero negative
    else ofRatio negative (m * Nat.pow 2 (e - e').toNat) (m' * Nat.pow 2 (e' - e).toNat)
  | .infinite _, .finite .. => .infinite negative
  | .finite .., .infinite _ => zero negative
  | _, _ => .nan

end Binary64
end Listing
