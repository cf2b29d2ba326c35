import Listing.Value.Hashing

/-!
# Values as mappings

A mapping is itself, and a row of pairs is the mapping that the pairs write one after the other.
-/

namespace Listing.Value

/-- The entry that the `i`-th part of a row writes. -/
def entry (i : Nat) (v : Value) : Except Failure (Key × Value) :=
  match v.iterate with
  | .error _ => .error (.pairShape i)
  | .ok [k, x] => do
    match k.memberFault? with
    | some fault => throw fault
    | Option.none => return (← k.toKey?, x)
  | .ok parts => .error (.pairLength i parts.length)

/-- The mapping that a value is or writes. -/
def toFields (v : Value) : Except Failure Fields :=
  match v with
  | map es => .ok es
  | v => do
    let parts ← v.iterate
    return Entries.ofPairs (← parts.zipIdx.mapM fun (x, i) => entry i x)

end Listing.Value
