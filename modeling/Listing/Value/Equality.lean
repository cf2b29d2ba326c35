import Listing.Value.Basic

/-!
# Equality of values

Numbers are equal by exact value, across truth values, integers and floating point; texts and members
by their text; mappings and sets without regard to order; objects by identity.
-/

namespace Listing.Value

mutual

def same : Value → Value → Bool
  | none, none => true
  | bytes a, bytes b => a == b
  | list xs, list ys => sameAll xs ys
  | tuple xs, tuple ys => sameAll xs ys
  | set xs, set ys => xs.length == ys.length && allAmong xs ys
  | map es, map fs => es.length == fs.length && allHeld es fs
  | object i _, object j _ => i == j
  | a, b =>
    match a.text?, b.text? with
    | some s, some t => s == t
    | Option.none, Option.none =>
      match a.number?, b.number? with
      | some x, some y => compareNumbers? x y == some .eq
      | _, _ => false
    | _, _ => false
termination_by structural a => a

/-- Whether two rows of values are equal place by place. -/
def sameAll : List Value → List Value → Bool
  | [], [] => true
  | x :: xs, y :: ys => same x y && sameAll xs ys
  | _, _ => false
termination_by structural xs => xs

/-- Whether each value equals one of the others. -/
def allAmong : List Value → List Value → Bool
  | [], _ => true
  | x :: xs, ys => ys.any (same x ·) && allAmong xs ys
termination_by structural xs => xs

/-- Whether each entry is held, with an equal value, by the others. -/
def allHeld : List (Key × Value) → List (Key × Value) → Bool
  | [], _ => true
  | (k, v) :: es, fs =>
    (match fs.find? (·.1.same k) with
      | some (_, w) => same v w
      | Option.none => false) && allHeld es fs
termination_by structural es => es

end

/-- The distinct values of a row, each at its first place. -/
def distinct (xs : List Value) : List Value :=
  xs.foldl (fun kept x => if kept.any (same x ·) then kept else kept ++ [x]) []

end Listing.Value
