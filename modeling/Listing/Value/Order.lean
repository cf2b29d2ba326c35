import Listing.Value.Equality

/-!
# Order of values

Numbers compare by exact value, texts by code points, byte strings and rows place by place at the
first difference, sets by inclusion. Values of other or of different kinds have no order, and asking
for one is a failure.
-/

namespace Listing

/-- An ordering question. -/
inductive Comparison where
  | lt | le | gt | ge
deriving DecidableEq

namespace Comparison

/-- The sign of a question, as messages use it. -/
def symbol : Comparison → String
  | lt => "<" | le => "<=" | gt => ">" | ge => ">="

def holds (c : Comparison) : Ordering → Bool
  | .lt => c == lt || c == le
  | .eq => c == le || c == ge
  | .gt => c == gt || c == ge

end Comparison

namespace Value

/-- The order of two rows of things that have an order. -/
def compareRows {α : Type} (compare : α → α → Ordering) : List α → List α → Ordering
  | [], [] => .eq
  | [], _ :: _ => .lt
  | _ :: _, [] => .gt
  | x :: xs, y :: ys => (compare x y).then (compareRows compare xs ys)

/-- The order of two texts by code points. -/
def compareTexts (s t : String) : Ordering :=
  compareRows (fun c d => compare c.toNat d.toNat) s.toList t.toList

def compareBytes (a b : List UInt8) : Ordering :=
  compareRows (fun x y => compare x.toNat y.toNat) a b

/-- The order of two values that are no rows: numbers, texts or byte strings. -/
def compareScalars? (a b : Value) : Option (Option Ordering) :=
  match a.text?, b.text? with
  | some s, some t => some (some (compareTexts s t))
  | Option.none, Option.none =>
    match a.number?, b.number? with
    | some x, some y => some (compareNumbers? x y)
    | Option.none, Option.none =>
      match a, b with
      | bytes x, bytes y => some (some (compareBytes x y))
      | _, _ => Option.none
    | _, _ => Option.none
  | _, _ => Option.none

mutual

def ask (c : Comparison) : Value → Value → Except Failure Bool
  | list xs, list ys => askRows c xs ys
  | tuple xs, tuple ys => askRows c xs ys
  | set xs, set ys =>
    let below := allAmong xs ys
    let above := allAmong ys xs
    .ok (match c with
      | .lt => below && !above
      | .le => below
      | .gt => above && !below
      | .ge => above)
  | a, b =>
    match compareScalars? a b with
    | some (some o) => .ok (c.holds o)
    | some Option.none => .ok false
    | Option.none => .error (.unordered c.symbol a.kind b.kind)
termination_by structural a => a

/-- Answers an ordering question about two rows: at the first place where they differ, else by their
lengths. -/
def askRows (c : Comparison) : List Value → List Value → Except Failure Bool
  | [], ys => .ok (c.holds (if ys.isEmpty then .eq else .lt))
  | _ :: _, [] => .ok (c.holds .gt)
  | x :: xs, y :: ys => if same x y then askRows c xs ys else ask c x y
termination_by structural xs => xs

end
end Value
end Listing
