import Listing.Number.Reading
import Listing.Value.Basic

/-!
# Whole numbers of values

The integer that a value is read or cut to: a text is read whole, with underscores between digits and
blanks around, and a floating-point number loses its fraction.
-/

namespace Listing.Value

/-- The whole number that characters write; `shown` stands for them in a failure. -/
def wholeOf (cs : List Char) (shown : String) : Except Failure Int :=
  match Numeral.integerDigits? cs with
  | some (negative, digits) =>
    if digitLimit < digits.length then .error (.longIntegerText digits.length)
    else .ok (signed negative (ofDigits digits))
  | .none => .error (.integerText shown)

def wholeOfText (s : String) : Except Failure Int := wholeOf s.toList (Text.quoted s)

def wholeOfBytes (b : List UInt8) : Except Failure Int :=
  let cs := b.map fun x => Char.ofNat x.toNat
  wholeOf (if b.all (· < 128) then cs else []) (Text.quotedBytes b)

def whole (v : Value) : Except Failure Int :=
  match v with
  | .int n => .ok n
  | .bool b => .ok b.toInt
  | .float .nan => .error .nanInteger
  | .float (.infinite _) => .error .infiniteInteger
  | .float (.finite negative m e) => .ok (Dyadic.trunc ⟨if negative then -(m : Int) else m, e⟩)
  | .bytes b => wholeOfBytes b
  | v =>
    match v.text? with
    | some s => wholeOfText s
    | .none => .error (.integerShape v.kind)

end Listing.Value
