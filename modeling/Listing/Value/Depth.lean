import Listing.Value.Basic

/-!
# Depth of values

A scalar has depth 1, a mapping or row one more than its deepest part. `deeper` tests a bound with a
worklist, so it gives up at the first part that is too deep.
-/

namespace Listing.Value

mutual

/-- The depth of a value. -/
def depth : Value → Nat
  | list xs => depthAll xs + 1
  | tuple xs => depthAll xs + 1
  | map es => depthEntries es + 1
  | _ => 1
termination_by structural v => v

/-- The greatest depth in a row; 0 for none. -/
def depthAll : List Value → Nat
  | [] => 0
  | x :: xs => max (depth x) (depthAll xs)
termination_by structural xs => xs

/-- The greatest depth among the values of entries; 0 for none. -/
def depthEntries : List (Key × Value) → Nat
  | [] => 0
  | (_, v) :: es => max (depth v) (depthEntries es)
termination_by structural es => es

end

/-- The parts that lie directly inside a value. -/
def parts : Value → List Value
  | list xs | tuple xs => xs
  | map es => es.map (·.2)
  | _ => []

mutual

/-- The number of values that a value holds, itself included. -/
def weight : Value → Nat
  | list xs => weightAll xs + 1
  | tuple xs => weightAll xs + 1
  | map es => weightEntries es + 1
  | _ => 1
termination_by structural v => v

def weightAll : List Value → Nat
  | [] => 0
  | x :: xs => weight x + weightAll xs
termination_by structural xs => xs

def weightEntries : List (Key × Value) → Nat
  | [] => 0
  | (_, v) :: es => weight v + weightEntries es
termination_by structural es => es

end

/-- The number of values on a worklist, with all that they hold. -/
def worklistWeight (work : List (Value × Nat)) : Nat := weightAll (work.map (·.1))

theorem weightEntries_eq (es : List (Key × Value)) :
    weightEntries es = weightAll (es.map (·.2)) := by
  induction es with
  | nil => rfl
  | cons e es ih => obtain ⟨k, v⟩ := e; simp [weightEntries, weightAll, ih]

theorem weight_eq (v : Value) : weight v = weightAll v.parts + 1 := by
  cases v <;> simp [weight, parts, weightAll, weightEntries_eq]

theorem weightAll_append (xs ys : List Value) :
    weightAll (xs ++ ys) = weightAll xs + weightAll ys := by
  induction xs with
  | nil => simp [weightAll]
  | cons x xs ih => simp [weightAll, ih, Nat.add_assoc]

theorem worklistWeight_parts (xs : List Value) (n : Nat) :
    worklistWeight (xs.map (·, n)) = weightAll xs := by
  induction xs with
  | nil => rfl
  | cons x xs ih => simpa [worklistWeight, weightAll] using ih

/-- Whether a value on the worklist, counted from the depth noted beside it, reaches below a limit. -/
def deeperOn (limit : Nat) : List (Value × Nat) → Bool
  | [] => false
  | (v, n) :: work =>
    if limit < n then true else deeperOn limit (v.parts.map (·, n + 1) ++ work)
termination_by work => worklistWeight work
decreasing_by
  have h := worklistWeight_parts v.parts (n + 1)
  simp only [worklistWeight] at h ⊢
  simp only [List.map_append, weightAll_append, h, List.map_cons, weightAll, weight_eq v]
  omega

def deeper (limit : Nat) (v : Value) : Bool := deeperOn limit [(v, 1)]

end Listing.Value
