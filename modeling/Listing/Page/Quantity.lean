import Listing.Value.Order

/-!
# Quantities

Page numbers and page sizes as arithmetic sees them. They are integers unless the server hands in
floating-point numbers, with which the arithmetic goes on.
-/

namespace Listing

/-- A number of pages, of records or of records to skip. -/
inductive Quantity where
  | whole (n : Int)
  | fractional (x : Binary64)
deriving DecidableEq, Inhabited

namespace Quantity

def toValue : Quantity → Value
  | whole n => .int n
  | fractional x => .float x

/-- The floating-point number nearest to an integer, unless it lies outside the format. -/
def rounded (n : Int) : Except Failure Binary64 :=
  match Binary64.ofInt n with
  | .infinite _ => .error .integerPastFloat
  | x => .ok x

/-- One, or a value that is greater. -/
def atLeastOne (v : Value) : Except Failure Quantity := do
  if ← Value.ask .gt v (.int 1) then
    match v with
    | .int n => return whole n
    | .float x => return fractional x
    | _ => return whole 1
  else return whole 1

def capped (q : Quantity) (ceiling : Int) : Quantity :=
  match q with
  | whole n => if ceiling < n then whole ceiling else whole n
  | fractional x =>
    if x.compareExact? ⟨ceiling, 0⟩ = some .gt then whole ceiling else fractional x

def pred : Quantity → Quantity
  | whole n => whole (n - 1)
  | fractional x => fractional (x.sub (.ofInt 1))

def times : Quantity → Quantity → Except Failure Quantity
  | whole m, whole n => .ok (whole (m * n))
  | whole m, fractional y => do return fractional ((← rounded m).mul y)
  | fractional x, whole n => do return fractional (x.mul (← rounded n))
  | fractional x, fractional y => .ok (fractional (x.mul y))

/-- The quotient of two integers, of which the second is positive, rounded once. -/
def ratio (m n : Int) : Except Failure Binary64 :=
  match Binary64.ofRatio (m < 0) m.natAbs n.toNat with
  | .infinite _ => .error .quotientPastFloat
  | x => .ok x

/-- A total divided by a positive quantity. -/
def share (total : Value) (size : Quantity) : Except Failure Binary64 :=
  match total, size with
  | .int m, whole n => ratio m n
  | .bool b, whole n => ratio b.toInt n
  | .int m, fractional y => do return (← rounded m).div y
  | .bool b, fractional y => do return (← rounded b.toInt).div y
  | .float x, whole n => do return x.div (← rounded n)
  | .float x, fractional y => .ok (x.div y)
  | v, q => .error (.operands "/" v.kind q.toValue.kind)

/-- The least integer that is not below a floating-point number. -/
def ceil (x : Binary64) : Except Failure Int :=
  match x with
  | .nan => .error .nanInteger
  | .infinite _ => .error .infiniteInteger
  | .finite negative m e => .ok (Dyadic.ceil ⟨if negative then -(m : Int) else m, e⟩)

def pages (total : Value) (size : Quantity) : Except Failure Int := do ceil (← share total size)

end Quantity
end Listing
