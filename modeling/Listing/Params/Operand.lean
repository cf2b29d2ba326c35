import Listing.Number.Reading
import Listing.Text.Lower
import Listing.Text.Split
import Listing.Value.Display

/-!
# Operands

The value of a bracketed key: an operator word and a colon, then the operand. Words and numbers are
read as what they look like; the set operators split their operand at commas.
-/

namespace Listing.Operand

/-- The operator that a text starts with and its operand; a text that starts with none is compared as
it is. -/
def splitOperator (s : String) : Operator × String :=
  match Text.splitFirst? ':' s.toList with
  | some (word, rest) =>
    match Operator.ofWord? (String.ofList word) with
    | some op => (op, String.ofList rest)
    | none => (.eq, s)
  | none => (.eq, s)

/-- The value that a text looks like. A decimal surrounded by separators that number reading refuses
is a failure; an integer that cannot be read stays a text. -/
def scalar (s : String) : Except Failure Value :=
  let lowered := Text.lower s
  if lowered = "true" then .ok (.bool true)
  else if lowered = "false" then .ok (.bool false)
  else
    match Numeral.integer s.toList with
    | .read n => .ok (.int n)
    | .refused => .ok (.text s)
    | .absent =>
      match Numeral.decimal s.toList with
      | .read x => .ok (.float x)
      | .refused => .error (.floatText (Text.quoted s))
      | .absent => .ok (.text s)

/-- The value of an operand under an operator. -/
def coerce (op : Operator) (s : String) : Except Failure Value :=
  if op.isSet then do
    let values ← (Text.splitAt ',' s.toList).mapM fun part =>
      scalar (String.ofList (Text.trimBy Text.isBlank part))
    return .list values
  else scalar s

end Listing.Operand
