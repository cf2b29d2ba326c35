import Listing.Value.Order

/-!
# Sorting

Stable sorting by an ordering question that may fail. Where no question fails the order is all that
shows; where some do, which pair is asked first shows too, so it is laid down: the run that the row
starts with is found first (a falling one is turned around), and then each further element is placed
by halving.
-/

namespace Listing.Sorting

variable {α : Type}

/-- How an element goes below another. -/
abbrev Below (α : Type) := α → α → Except Failure Bool

/-- The length of the run of elements each of which answers `wanted` to going below the one before it,
counted after `last`. -/
def runLength (below : Below α) (wanted : Bool) (last : α) : List α → Except Failure Nat
  | [] => .ok 0
  | x :: xs => do
    if (← below x last) = wanted then return (← runLength below wanted x xs) + 1 else return 0

/-- The place for an element among sorted ones between two bounds: after all that it does not go below.
The fuel bounds the halvings. -/
def placeBetween (below : Below α) (sorted : Array α) (x : α) : Nat → Nat → Nat → Except Failure Nat
  | 0, low, _ => .ok low
  | fuel + 1, low, high =>
    if low < high then
      let middle := (low + high) / 2
      match sorted[middle]? with
      | some y => do
        if ← below x y then placeBetween below sorted x fuel low middle
        else placeBetween below sorted x fuel (middle + 1) high
      | none => .ok low
    else .ok low

/-- Puts an element into its place. -/
def insert (below : Below α) (sorted : Array α) (x : α) : Except Failure (Array α) := do
  let place ← placeBetween below sorted x (sorted.size + 1) 0 sorted.size
  return sorted.extract 0 place ++ #[x] ++ sorted.extract place sorted.size

def sort (below : Below α) : List α → Except Failure (List α)
  | x :: y :: rest => do
    let falling ← below y x
    let count := (← runLength below falling y rest) + 2
    let run := (x :: y :: rest).take count
    let start := if falling then run.reverse else run
    return (← ((x :: y :: rest).drop count).foldlM (insert below) start.toArray).toList
  | xs => .ok xs

end Listing.Sorting

namespace Listing.Value

def sort (xs : List Value) : Except Failure (List Value) := Sorting.sort (ask .lt) xs

end Listing.Value
