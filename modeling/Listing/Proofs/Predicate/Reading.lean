import Listing.Proofs.Predicate.Conjunction
import Listing.Proofs.Predicate.Native

/-!
# What filters say

A direct reading of filters on a record, in the words of the client. The value of a field passes every
operator of its condition; what stands under `$not` is denied, and takes the place of an inequality; a
mode acts on the condition it stands in, and only beside an operator that searches in a text. A
relation leads to something of which the inner filters hold. Whatever cannot be decided, because a
value has no text, does not hold.
-/

namespace Listing.Reading

open Predicate

def valueAt (record : Value) (k : Key) : Value := (record.get k).toOption.getD .none

/-- Whether a condition compares without regard to case: its mode asks for that, and it searches in a
text. -/
def foldsCase (es : Fields) : Bool :=
  (es.find Operator.mode.token).any (·.same (.text "insensitive")) &&
    Operator.textual.any (es.has ·.token)

/-- Whether a value passes an operator. Modes and negations are read elsewhere. -/
def passes (fold : Bool) (actual : Value) (op : Operator) (expected : Value) : Bool :=
  match op with
  | .eq => equal fold actual expected
  | .ne => !equal fold actual expected
  | .gt => ordered .gt actual expected
  | .gte => ordered .ge actual expected
  | .lt => ordered .lt actual expected
  | .lte => ordered .le actual expected
  | .isIn => expected.elements.any (equal fold actual ·)
  | .notIn => expected.elements.all (!equal fold actual ·)
  | .contains => isYes (textual (fun a e => Text.occurs e a) fold actual expected)
  | .startsWith => isYes (textual (fun a e => e.isPrefixOf a) fold actual expected)
  | .endsWith => isYes (textual (fun a e => e.isSuffixOf a) fold actual expected)
  | .is =>
    match nullCheck expected with
    | .null => isNull actual
    | .present => !isNull actual
    | .other => actual.same expected
  | .mode | .not => true

/-- Whether a value passes one entry of a condition; beside a negation an inequality is not read. -/
def entryMet (fold negated : Bool) (actual : Value) (k : Key) (expected : Value) : Bool :=
  match k.operator? with
  | some op => op == .ne && negated || passes fold actual op expected
  | none => true

/-- Whether a value passes the entries of a condition, its negation apart. -/
def entriesMet (actual : Value) (es : Fields) : Bool :=
  es.all fun e => entryMet (foldsCase es) (es.has Operator.not.token) actual e.1 e.2

mutual

/-- Whether a value passes the negation in a condition, if it has one. -/
def negationMet (actual : Value) : List (Key × Value) → Bool
  | [] => true
  | (k, v) :: rest => if k.operator? = some .not then !meets actual v else negationMet actual rest
termination_by structural es => es

/-- Whether a value meets a condition; what is no condition it meets by being equal to it. -/
def meets (actual : Value) : Value → Bool
  | .map es => negationMet actual es && entriesMet actual es
  | v => actual.same v
termination_by structural v => v

end

def hasOperator (es : Fields) : Bool := es.any (·.1.operator?.isSome)

mutual

def holdsOf (record : Value) : List (Key × Value) → Bool
  | [] => true
  | (k, v) :: rest => fieldHolds (valueAt record k) v && holdsOf record rest
termination_by structural es => es

/-- Whether a filter holds of the value of its field: as a condition, or as filters on what the field
leads to. -/
def fieldHolds (actual : Value) : Value → Bool
  | .map es =>
    if hasOperator es then meets actual (.map es)
    else
      match items? actual with
      | some xs => xs.any fun x => holdsOf x es
      | none => !isNull actual && holdsOf actual es
  | v => actual.same v
termination_by structural v => v

end
end Listing.Reading
