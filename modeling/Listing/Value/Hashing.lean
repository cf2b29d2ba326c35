import Listing.Value.Equality

/-!
# Values as members

What may be a member of a set or a key of a mapping: scalars, and tuples of such. Running through a
row of members keeps each at its first place.
-/

namespace Listing.Value

mutual

/-- Why a value cannot be a member, if it cannot. -/
def memberFault? : Value → Option Failure
  | tuple xs => memberFaultAmong? xs
  | list _ => some (.unhashable "list")
  | set _ => some (.unhashable "set")
  | map _ | rule (.nested _) | policy _ => some (.unhashable "dict")
  | _ => Option.none
termination_by structural v => v

def memberFaultAmong? : List Value → Option Failure
  | [] => Option.none
  | x :: xs => (memberFault? x).or (memberFaultAmong? xs)
termination_by structural xs => xs

end

/-- The distinct members among the values that running through a value yields. -/
def members (v : Value) : Except Failure (List Value) := do
  let xs ← v.iterate
  match memberFaultAmong? xs with
  | some fault => .error fault
  | Option.none => return distinct xs

end Listing.Value
