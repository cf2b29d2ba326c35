import Listing.Value.Basic

/-!
# Windows of a row

The part of a row between two positions. A negative position counts from the end; a position outside
the row is the end that it lies beyond.
-/

namespace Listing.Window

/-- The place of a position in a row of some length. -/
def place (length : Nat) (position : Int) : Nat :=
  if position < 0 then (position + length).toNat else min position.toNat length

/-- The part of a row from one position up to another. -/
def between {α : Type} (start stop : Int) (rows : List α) : List α :=
  (rows.take (place rows.length stop)).drop (place rows.length start)

def integer? : Value → Option Int
  | .int n => some n
  | .bool b => some b.toInt
  | _ => none

/-- Why two values that are not both integers mark no window: they cannot be added, or their sum is no
position. -/
def fault (skip take : Value) : Failure :=
  match skip, take with
  | .list _, .list _ | .tuple _, .tuple _ | .bytes _, .bytes _ => .notAnIndex
  | .list _, v => .concatenation "list" v.kind
  | .tuple _, v => .concatenation "tuple" v.kind
  | skip, take =>
    match skip.text?, take.text? with
    | some _, some _ => .notAnIndex
    | some _, none => .concatenation "str" take.kind
    | none, _ =>
      if skip.number?.isSome && take.number?.isSome then .notAnIndex
      else .operands "+" skip.kind take.kind

/-- The part of a row that skips some entries and takes some. -/
def slice {α : Type} (skip take : Value) (rows : List α) : Except Failure (List α) :=
  match integer? skip, integer? take with
  | some m, some n => .ok (between m (m + n) rows)
  | _, _ => .error (fault skip take)

end Listing.Window
