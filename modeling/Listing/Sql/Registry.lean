import Listing.Predicate.Evaluation
import Listing.Sql.Clause

/-!
# Native operators

What becomes of one entry of a condition: each native key names an operator that makes a clause of a
term and an operand. A registry holds operators by name; a server may add its own or replace some.
-/

namespace Listing.Sql

/-- An operator of native conditions. -/
structure NativeOperator where
  name : String
  /-- The native key whose standard operator this is, if it is one. -/
  standard : Option NativeKey := none
  /-- Makes a clause of a term and an operand, with or without regard to case. -/
  apply : Term → Value → Bool → Except Failure Clause

namespace NativeOperator

/-- Whether a sign asks for equality rather than order. -/
def comparesEquality : Sign → Option Bool
  | .eq => some true
  | .ne => some false
  | _ => none

/-- A term compared with an operand. Null and truth values can only be equal or not. -/
def comparison (lowered : Bool) (t : Term) (sign : Sign) (v : Value) : Except Failure Clause :=
  match v, comparesEquality sign with
  | .none, some equal => .ok (.null t equal)
  | .bool b, some equal => .ok (.truth t equal b)
  | .none, none | .bool _, none => .error .orderedConstant
  | v, _ => .ok (.compare lowered t sign ⟨.beside t.type v, v⟩)

/-- A term compared for equality, texts in lower case if case is to be disregarded. -/
def equality (sign : Sign) (t : Term) (v : Value) (insensitive : Bool) : Except Failure Clause :=
  match v.text? with
  | some s =>
    if insensitive then comparison true t sign (.text (Text.lower s)) else comparison false t sign v
  | none => comparison false t sign v

/-- The values of a collection; any other value alone. -/
def collection : Value → List Value
  | .list xs | .tuple xs | .set xs => xs
  | v => [v]

/-- A term among the values of a collection; what they are bound as follows from the first. -/
def membership (among : Bool) (t : Term) (v : Value) : Clause :=
  let values := collection v
  let type := (values.head?.map (BindType.beside t.type)).getD .plain
  .member t among (values.map fun x => ⟨type, x⟩)

def search (place : Place) (t : Term) (v : Value) (insensitive : Bool) : Except Failure Clause := do
  return .like insensitive t place (← v.display)

/-- What a native key makes of a term and an operand. -/
def standardApply (key : NativeKey) (t : Term) (v : Value) (insensitive : Bool) :
    Except Failure Clause :=
  match key with
  | .equals => equality .eq t v insensitive
  | .not => equality .ne t v insensitive
  | .gt => comparison false t .gt v
  | .gte => comparison false t .ge v
  | .lt => comparison false t .lt v
  | .lte => comparison false t .le v
  | .isIn => .ok (membership true t v)
  | .notIn => .ok (membership false t v)
  | .contains => search .anywhere t v insensitive
  | .startsWith => search .start t v insensitive
  | .endsWith => search .finish t v insensitive
  | .mode => .ok (.constant true)
  | .is =>
    match Predicate.nullCheck v with
    | .null => .ok (.null t true)
    | .present => .ok (.null t false)
    | .other => comparison false t .eq v

def ofKey (key : NativeKey) : NativeOperator :=
  { name := key.name, standard := some key, apply := standardApply key }

end NativeOperator

/-- Operators by name. -/
structure Registry where
  operators : List NativeOperator := []

namespace Registry

def get? (r : Registry) (name : String) : Option NativeOperator :=
  r.operators.find? (·.name == name)

def has (r : Registry) (name : String) : Bool := (r.get? name).isSome

def remove (r : Registry) (name : String) : Registry := ⟨r.operators.filter (·.name != name)⟩

/-- Registers an operator in place of any of its name. -/
def register (r : Registry) (op : NativeOperator) : Registry := ⟨(r.remove op.name).operators ++ [op]⟩

def registerAll (r : Registry) (ops : List NativeOperator) : Registry := ops.foldl register r

def names (r : Registry) : List String := r.operators.map (·.name)

/-- The keys that have a standard operator: all but the mode, which every operator is told. -/
def standardKeys : List NativeKey := NativeKey.all.filter (· != .mode)

/-- The registry of the standard operators. -/
def standard : Registry := registerAll {} (standardKeys.map NativeOperator.ofKey)

end Registry
end Listing.Sql
