import Listing.Memory.Order
import Listing.Memory.Window

/-!
# The store in memory

A store over a row of records held as values. Counting and fetching evaluate the predicate on one
record after the other.
-/

namespace Listing

/-- A store that holds its records. -/
structure MemoryStore where
  records : List Value := []

namespace MemoryStore

/-- The store of the records that running through a value yields. -/
def ofValue (records : Value) : Except Failure MemoryStore := do return ⟨← records.iterate⟩

def add (s : MemoryStore) (records : List Value) : MemoryStore := ⟨s.records ++ records⟩

def matching (predicate : Value) : List Value → Except Failure (List Value)
  | [] => .ok []
  | r :: rs => do
    if ← Predicate.valueHolds r predicate then return r :: (← matching predicate rs)
    else matching predicate rs

def count (s : MemoryStore) (predicate : Value) : Except Failure Nat := do
  return (← matching predicate s.records).length

/-- The records in the order that a value asks for; what counts as false asks for none. -/
def ordered (order : Value) (rows : List Value) : Except Failure (List Value) :=
  if order.isTrue then do Memory.sortAll (← order.fieldsFor "items") rows else .ok rows

def selectedNames (select : Value) : Except Failure (List Value) :=
  match select with
  | .map es => .ok ((es.filter fun (_, keep) => keep.isTrue).map fun (k, _) => Value.ofKey k)
  | v => v.iterate

/-- A record with the selected fields only; a record that is no mapping stays whole. -/
def project (select record : Value) : Except Failure Value :=
  match record with
  | .map es => do
    let fields ← (← selectedNames select).mapM fun name => do
      match name.memberFault? with
      | some fault => throw fault
      | none =>
        let k ← name.toKey?
        return (k, (Entries.get? es k).getD .none)
    return .map (Entries.ofPairs fields)
  | v => .ok v

/-- Keeps of each record what the options select. -/
def projected (options : Value) (rows : List Value) : Except Failure (List Value) := do
  match (← options.fieldsFor "get").find "select" with
  | some select => if select.isTrue then rows.mapM (project select) else return rows
  | none => return rows

/-- The records that satisfy a predicate: in order, cut to a window, and with the selected fields. -/
def fetch (s : MemoryStore) (predicate order skip take options : Value) :
    Except Failure (List Value) := do
  let rows ← matching predicate s.records
  let rows ← ordered order rows
  let rows ← Window.slice skip take rows
  projected options rows

end MemoryStore
end Listing
