import Listing.Predicate.Evaluation
import Listing.Value.Sorting

/-!
# The order of records

Records are put in order by the values of a field: null first, then numbers by exact value, then all
other values grouped by kind. Several fields are sorted by one after the other, the least significant
first; each sort is stable, in both directions.
-/

namespace Listing

/-- What a record is sorted by. -/
inductive SortKey where
  | null
  | number (v : Value)
  | other (kind : String) (v : Value)

namespace SortKey

def ofValue : Value → SortKey
  | .none => null
  | .int n => number (.int n)
  | .float x => number (.float x)
  | v => other v.kind v

/-- The place of a group among the groups. -/
def rank : SortKey → Nat
  | null => 0
  | number _ => 1
  | other .. => 2

/-- The kind within the last group. -/
def kind : SortKey → String
  | other k _ => k
  | _ => ""

def value : SortKey → Value
  | null => .none
  | number v | other _ v => v

def compareGroups (a b : SortKey) : Ordering :=
  (compare a.rank b.rank).then (Value.compareTexts a.kind b.kind)

/-- Whether a key holds a value that has a place in the order of its group: a number, a text, a truth
value or a byte string. -/
def isPlain : SortKey → Bool
  | null => true
  | number (.float .nan) => false
  | number _ => true
  | other _ v => (Value.compareScalars? v v).isSome

def compare (a b : SortKey) : Ordering :=
  (compareGroups a b).then (((Value.compareScalars? a.value b.value).join).getD .eq)

/-- Whether a key goes before or beside another, both plain. -/
def atMost (a b : SortKey) : Bool := (compare a b).isLE

/-- Whether a key goes below another; asked of values without an order, a failure. -/
def below (a b : SortKey) : Except Failure Bool :=
  match compareGroups a b with
  | .lt => .ok true
  | .gt => .ok false
  | .eq => if a.value.same b.value then .ok false else Value.ask .lt a.value b.value

end SortKey

namespace Memory

/-- Sorts keyed records, rising or falling; records of equal keys stay in order. -/
def sortKeyed (falling : Bool) (rows : List (SortKey × Value)) :
    Except Failure (List (SortKey × Value)) :=
  if rows.all (·.1.isPlain) then
    .ok (if falling then rows.mergeSort fun a b => b.1.atMost a.1
      else rows.mergeSort fun a b => a.1.atMost b.1)
  else
    let below (a b : SortKey × Value) := a.1.below b.1
    if falling then do return (← Sorting.sort below rows.reverse).reverse
    else Sorting.sort below rows

def sortBy (field : Key) (falling : Bool) (rows : List Value) : Except Failure (List Value) := do
  let keyed ← rows.mapM fun r => do return (SortKey.ofValue (← r.get field), r)
  return (← sortKeyed falling keyed).map (·.2)

/-- Whether a direction, as a store is given it, falls. -/
def isFalling (direction : Value) : Bool := direction.same (.text Direction.desc.word)

/-- Sorts records by fields, the first of which is the most significant. -/
def sortAll (order : Fields) (rows : List Value) : Except Failure (List Value) :=
  order.reverse.foldlM (fun rows (field, direction) => sortBy field (isFalling direction) rows) rows

end Memory
end Listing
