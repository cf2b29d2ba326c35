import Listing.Direction
import Listing.Number.Shortest
import Listing.Operator

/-!
# Keys

The names under which a mapping holds its entries. Most are texts; a member of the operator or
direction vocabulary is a text too, that of its token; numbers and the like occur in mappings that
were not read from a query. Keys are compared by what they stand for, so `1`, `1.0` and `true` are
one key.
-/

namespace Listing

/-- A key of a mapping. -/
inductive Key where
  | text (s : String)
  | operator (op : Operator)
  | direction (d : Direction)
  | none
  | bool (b : Bool)
  | int (n : Int)
  | float (x : Binary64)
  | bytes (b : List UInt8)
deriving DecidableEq, Inhabited

namespace Key

/-- The text that a key stands for, if it stands for one. -/
def name? : Key → Option String
  | text s => some s
  | operator op => some op.token
  | direction d => some d.word
  | _ => Option.none

/-- The number that a key stands for, if it is a number: an exact one, or what no exact number is. -/
def number? : Key → Option (Dyadic ⊕ Binary64)
  | bool b => some (.inl ⟨b.toInt, 0⟩)
  | int n => some (.inl ⟨n, 0⟩)
  | float x => some (match x.toDyadic? with
    | some d => .inl d
    | Option.none => .inr x)
  | _ => Option.none

/-- Whether two keys name the same entry. -/
def same (a b : Key) : Bool :=
  match a.name?, b.name? with
  | some s, some t => s == t
  | Option.none, Option.none =>
    match a.number?, b.number? with
    | some (.inl x), some (.inl y) => x.compare y == .eq
    | some (.inr x), some (.inr y) => x.compare? y == some .eq
    | some _, some _ => false
    | Option.none, Option.none => a == b
    | _, _ => false
  | _, _ => false

def operator? (k : Key) : Option Operator :=
  match k with
  | operator op => some op
  | k => k.name?.bind Operator.ofToken?

@[simp] theorem name?_text (s : String) : (text s).name? = some s := rfl

@[simp] theorem same_text (s t : String) : (text s).same (text t) = (s == t) := rfl

@[simp] theorem operator?_text (s : String) : (text s).operator? = Operator.ofToken? s := rfl

end Key

/-- Entries of a mapping, in the order of their first writing. -/
abbrev Entries (α : Type) := List (Key × α)

namespace Entries

variable {α : Type}

def get? (entries : Entries α) (k : Key) : Option α := (entries.find? (·.1.same k)).map (·.2)

def find (entries : Entries α) (name : String) : Option α := entries.get? (.text name)

def has (entries : Entries α) (name : String) : Bool := (entries.find name).isSome

/-- Writes an entry: in place of the entry of that key, or at the end. -/
def put (entries : Entries α) (k : Key) (v : α) : Entries α :=
  match entries with
  | [] => [(k, v)]
  | (k', v') :: rest => if k'.same k then (k', v) :: rest else (k', v') :: put rest k v

/-- The mapping written by a row of pairs: the last value of a key wins, its first place stays. -/
def ofPairs (pairs : List (Key × α)) : Entries α := pairs.foldl (fun es (k, v) => put es k v) []

end Entries
end Listing
