import Listing.Predicate.Basic
import Listing.Text.Fold
import Listing.Value.Display
import Listing.Value.Order

/-!
# Evaluating predicates

Whether a record that is held as a value satisfies a predicate. Conditions test the value of a field;
a predicate on a relation is carried on to what the field holds, and over a collection one satisfied
item is enough. A predicate that cannot be read is a failure, found only where evaluation gets to it.
-/

namespace Listing

def Text.occurs (part : List Char) : List Char → Bool
  | [] => part.isEmpty
  | c :: cs => part.isPrefixOf (c :: cs) || occurs part cs

namespace Value

/-- A text in folded case; any other value as it is. -/
def foldCase (v : Value) : Value := v.text?.elim v fun s => text (Text.fold s)

/-- The value of a field of a record; null if there is none. -/
def get (record : Value) (field : Key) : Except Failure Value :=
  match record with
  | map es => .ok ((Entries.get? es field).getD none)
  | object _ attributes =>
    if field.name?.isSome then .ok ((Entries.get? attributes field).getD none)
    else .error (.memberNotText (ofKey field).kind)
  | _ => if field.name?.isSome then .ok none else .error (.memberNotText (ofKey field).kind)

end Value

namespace Predicate

/-- A value in the case that a condition compares in. -/
def inCase (insensitive : Bool) (v : Value) : Value := if insensitive then v.foldCase else v

/-- Whether two values are equal in the case that a condition compares in. -/
def equal (insensitive : Bool) (actual expected : Value) : Bool :=
  (inCase insensitive actual).same (inCase insensitive expected)

/-- Whether a value is in an order to another. Null is in none, nor are values of different kinds. -/
def ordered (c : Comparison) (actual expected : Value) : Bool :=
  match actual, expected with
  | .none, _ | _, .none => false
  | actual, expected =>
    match Value.ask c actual expected with
    | .ok answer => answer
    | .error _ => false

/-- Whether a value is equal to one of the expected ones. -/
def among (insensitive : Bool) (actual expected : Value) : Bool :=
  expected.elements.any (equal insensitive actual ·)

/-- Whether the texts of two values pass a test. Null passes none. -/
def textual (test : List Char → List Char → Bool) (insensitive : Bool) (actual expected : Value) :
    Except Failure Bool :=
  match actual, expected with
  | .none, _ | _, .none => .ok false
  | actual, expected => do
    let a ← actual.display
    let e ← expected.display
    return if insensitive then test (Text.fold a).toList (Text.fold e).toList
      else test a.toList e.toList

inductive NullCheck where
  | null | present | other

/-- The null check that an operand asks for: `null`, `true` and the word `null` for null, `false` and
the word `not_null` for any other value. -/
def nullCheck (expected : Value) : NullCheck :=
  match expected with
  | .none | .bool true => .null
  | .bool false => .present
  | v =>
    match v.text? with
    | some "null" => .null
    | some "not_null" => .present
    | _ => .other

def isNull : Value → Bool
  | .none => true
  | _ => false

/-- Whether a value passes one entry of a condition, a mapping under `not` apart. -/
def test (insensitive : Bool) (actual : Value) (key : NativeKey) (expected : Value) :
    Except Failure Bool :=
  match key with
  | .equals => .ok (equal insensitive actual expected)
  | .not => .ok (!equal insensitive actual expected)
  | .gt => .ok (ordered .gt actual expected)
  | .gte => .ok (ordered .ge actual expected)
  | .lt => .ok (ordered .lt actual expected)
  | .lte => .ok (ordered .le actual expected)
  | .isIn => .ok (among insensitive actual expected)
  | .notIn => .ok (!among insensitive actual expected)
  | .contains => textual (fun a e => Text.occurs e a) insensitive actual expected
  | .startsWith => textual (fun a e => e.isPrefixOf a) insensitive actual expected
  | .endsWith => textual (fun a e => e.isSuffixOf a) insensitive actual expected
  | .mode => .ok true
  | .is =>
    .ok (match nullCheck expected with
      | .null => isNull actual
      | .present => !isNull actual
      | .other => actual.same expected)

def isInsensitive (es : Fields) : Bool :=
  (es.find NativeKey.mode.name).any (·.same (.text "insensitive"))

mutual

def passes (insensitive : Bool) (actual : Value) : List (Key × Value) → Except Failure Bool
  | [] => .ok true
  | (k, expected) :: rest => do
    let passed ← match nativeKey? k with
      | some key => passesEntry insensitive actual key expected
      | none => .ok true
    if passed then passes insensitive actual rest else return false
termination_by structural es => es

def passesEntry (insensitive : Bool) (actual : Value) (key : NativeKey) :
    Value → Except Failure Bool
  | .map es =>
    if key = .not ∧ isNativeCondition es then do return !(← passes (isInsensitive es) actual es)
    else test insensitive actual key (.map es)
  | expected => test insensitive actual key expected
termination_by structural v => v

end

/-- Whether a value passes a condition. -/
def satisfies (actual : Value) (condition : Fields) : Except Failure Bool :=
  passes (isInsensitive condition) actual condition

/-- The items of a collection. -/
def items? : Value → Option (List Value)
  | .list xs | .tuple xs | .set xs => some xs
  | _ => none

/-- Whether a value has no fields: a scalar that a relation cannot lead through. -/
def isScalar : Value → Bool
  | .bool _ | .int _ | .float _ | .text _ | .bytes _ | .operator _ | .direction _ => true
  | _ => false

/-- The first key of a mapping that is no native key. -/
def foreignKey (es : Fields) : Key :=
  ((es.find? fun (k, _) => !isNativeKey k).map (·.1)).getD .none

/-- Whether an item of a row passes a test that may fail; the first that does settles it. -/
def anyOf {α : Type} (test : α → Except Failure Bool) : List α → Except Failure Bool
  | [] => .ok false
  | x :: xs => do if ← test x then return true else anyOf test xs

/-- The failure of a value that stands where a predicate must. -/
def notPredicate (v : Value) : Except Failure Bool := .error (.noMember v.kind "items")

mutual

/-- Whether a record satisfies all entries of a predicate. -/
def holds (record : Value) : List (Key × Value) → Except Failure Bool
  | [] => .ok true
  | (k, v) :: rest => do
    if ← entryHolds record k v then holds record rest else return false
termination_by structural es => es

def entryHolds (record : Value) (k : Key) : Value → Except Failure Bool
  | .map es =>
    match junction? k with
    | some .all | some .any => holds record es
    | some .none => do return !(← holds record es)
    | none => do
      let actual ← record.get k
      if isNativeCondition es then satisfies actual es
      else if isNull actual then return false
      else match items? actual with
        | some xs => anyOf (fun x => holds x es) xs
        | none =>
          if isScalar actual then throw (.unsupportedPredicate (foreignKey es) "InMemoryStore")
          else holds actual es
  | .list ps =>
    match junction? k with
    | some .all => allHold record ps
    | some .any => anyHolds record ps
    | some .none => do return !(← anyHolds record ps)
    | none => do return (← record.get k).same (.list ps)
  | .tuple ps =>
    match junction? k with
    | some .all => allHold record ps
    | some .any => anyHolds record ps
    | some .none => do return !(← anyHolds record ps)
    | none => do return (← record.get k).same (.tuple ps)
  | v =>
    match junction? k with
    | some _ => notPredicate v
    | none => do return (← record.get k).same v
termination_by structural v => v

def valueHolds (record : Value) : Value → Except Failure Bool
  | .map es => holds record es
  | v => notPredicate v
termination_by structural v => v

/-- Whether a record satisfies all predicates of a row; the first that it fails settles it. -/
def allHold (record : Value) : List Value → Except Failure Bool
  | [] => .ok true
  | p :: ps => do if ← valueHolds record p then allHold record ps else return false
termination_by structural ps => ps

/-- Whether a record satisfies one of the predicates of a row; the first that it satisfies settles
it. -/
def anyHolds (record : Value) : List Value → Except Failure Bool
  | [] => .ok false
  | p :: ps => do if ← valueHolds record p then return true else anyHolds record ps
termination_by structural ps => ps

end
end Predicate
end Listing
