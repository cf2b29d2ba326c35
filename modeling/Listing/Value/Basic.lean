import Listing.Failure
import Listing.Policy.Basic

/-!
# Values

The data that flows through a listing: operands of client filters, fields of records, predicates,
options. Mappings keep the order in which their entries were first written. Apart from plain data
there are objects (known by an identity, with attributes), multi-valued query items, and the declared
rules and policies that a declaration may hold ready-made.
-/

namespace Listing

/-- A value. -/
inductive Value where
  | none
  | bool (b : Bool)
  | int (n : Int)
  | float (x : Binary64)
  | text (s : String)
  | bytes (b : List UInt8)
  | operator (op : Operator)
  | direction (d : Direction)
  | list (xs : List Value)
  | tuple (xs : List Value)
  | set (xs : List Value)
  | map (entries : List (Key × Value))
  | object (identity : Nat) (attributes : List (Key × Value))
  | items (pairs : List (Value × Value))
  | rule (r : Rule)
  | policy (p : FieldPolicy)
deriving Inhabited

abbrev Fields := Entries Value

namespace Value

/-- The name of a value's kind, as messages use it. -/
def kind : Value → String
  | none => "NoneType" | bool _ => "bool" | int _ => "int" | float _ => "float" | text _ => "str"
  | bytes _ => "bytes" | operator _ => "FilterOperator" | direction _ => "SortDirection"
  | list _ => "list" | tuple _ => "tuple" | set _ => "set" | map _ => "dict" | object .. => "Obj"
  | items _ => "Multi" | rule (.operators _) => "OperatorSet" | rule (.nested _) => "NestedPolicy"
  | policy _ => "FieldPolicy"

def ofKey : Key → Value
  | .text s => text s
  | .operator op => operator op
  | .direction d => direction d
  | .none => none
  | .bool b => bool b
  | .int n => int n
  | .float x => float x
  | .bytes b => bytes b

/-- The key that a value can be; mappings, lists and sets cannot. -/
def toKey? : Value → Except Failure Key
  | text s => .ok (.text s)
  | operator op => .ok (.operator op)
  | direction d => .ok (.direction d)
  | none => .ok .none
  | bool b => .ok (.bool b)
  | int n => .ok (.int n)
  | float x => .ok (.float x)
  | bytes b => .ok (.bytes b)
  | v => .error (.unhashable v.kind)

/-- The text that a value stands for: a text, or the token of a member. -/
def text? : Value → Option String
  | text s => some s
  | operator op => some op.token
  | direction d => some d.word
  | _ => Option.none

/-- Whether a value counts as true: neither null, false, zero nor empty. -/
def isTrue : Value → Bool
  | none => false
  | bool b => b
  | int n => n != 0
  | float x => !x.isZero
  | text s => s != ""
  | bytes b => !b.isEmpty
  | list xs | tuple xs | set xs => !xs.isEmpty
  | map es => !es.isEmpty
  | _ => true

def fields? : Value → Option Fields
  | map es => some es
  | _ => Option.none

/-- The entries of a mapping, demanded by looking up one of its members. -/
def fieldsFor (v : Value) (member : String) : Except Failure Fields :=
  match v with
  | map es => .ok es
  | v => .error (.noMember v.kind member)

/-- The values of a list or tuple; any other value alone. -/
def elements : Value → List Value
  | list xs | tuple xs => xs
  | v => [v]

/-- The values that running through a value yields: elements, keys of a mapping, characters. -/
def iterate (v : Value) : Except Failure (List Value) :=
  match v with
  | list xs | tuple xs | set xs => .ok xs
  | map es => .ok (es.map fun (k, _) => ofKey k)
  | text s => .ok (s.toList.map fun c => text (String.singleton c))
  | operator op => .ok (op.token.toList.map fun c => text (String.singleton c))
  | direction d => .ok (d.word.toList.map fun c => text (String.singleton c))
  | bytes b => .ok (b.map fun x => int x.toNat)
  | v => .error (.notIterable v.kind)

/-- The exact number that a value is, or the floating-point number that no exact number is. -/
def number? : Value → Option (Dyadic ⊕ Binary64)
  | bool b => some (.inl ⟨b.toInt, 0⟩)
  | int n => some (.inl ⟨n, 0⟩)
  | float x => some (match x.toDyadic? with
    | some d => .inl d
    | Option.none => .inr x)
  | _ => Option.none

def compareNumbers? : Dyadic ⊕ Binary64 → Dyadic ⊕ Binary64 → Option Ordering
  | .inl x, .inl y => some (x.compare y)
  | .inr x, .inl y => x.compareExact? y
  | .inl x, .inr y => (y.compareExact? x).map Ordering.swap
  | .inr x, .inr y => x.compare? y

def single (name : String) (v : Value) : Value := map [(.text name, v)]

end Value
end Listing
