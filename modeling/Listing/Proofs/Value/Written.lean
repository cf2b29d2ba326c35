import Listing.Proofs.Outcome
import Listing.Value.Display

/-!
# Values that have a text

A value has a text if the integers that it is written with have one. Those are the integers in its
parts, keys of mappings included, down to the rules and policies that it may hold.
-/

namespace Listing

open Outcome

/-- Whether an integer has no more digits than a text may have. -/
def ShortInt (n : Int) : Prop := (toString n.natAbs).length ≤ digitLimit

instance (n : Int) : Decidable (ShortInt n) := inferInstanceAs (Decidable (_ ≤ _))

/-- Whether a key is no integer with more digits than a text may have. -/
def Key.Short : Key → Prop
  | .int n => ShortInt n
  | _ => True

mutual

/-- Whether no key of a rule, nor of the rules below it, is a longer integer. -/
def Rule.Short : Rule → Prop
  | .operators _ => True
  | .nested fields => ShortFields fields
termination_by structural r => r

def Rule.ShortFields : List (Key × Rule) → Prop
  | [] => True
  | (k, r) :: rest => k.Short ∧ r.Short ∧ ShortFields rest
termination_by structural fields => fields

end

namespace Value

mutual

/-- Whether no integer in a value is longer. -/
def Short : Value → Prop
  | int n => ShortInt n
  | list xs => ShortAll xs
  | tuple xs => ShortAll xs
  | set xs => ShortAll xs
  | map es => ShortEntries es
  | object _ es => ShortEntries es
  | rule r => r.Short
  | policy p => Rule.ShortFields p.filterable ∧ ∀ e ∈ p.sortable, e.1.Short
  | _ => True
termination_by structural v => v

def ShortAll : List Value → Prop
  | [] => True
  | x :: xs => Short x ∧ ShortAll xs
termination_by structural xs => xs

def ShortEntries : List (Key × Value) → Prop
  | [] => True
  | (k, v) :: rest => k.Short ∧ Short v ∧ ShortEntries rest
termination_by structural es => es

end

theorem shortAll_iff {xs : List Value} : ShortAll xs ↔ ∀ x ∈ xs, x.Short := by
  induction xs with
  | nil => simp [ShortAll]
  | cons x xs ih => rw [ShortAll, ih, List.forall_mem_cons]

theorem shortEntries_iff {es : List (Key × Value)} :
    ShortEntries es ↔ ∀ e ∈ es, e.1.Short ∧ e.2.Short := by
  induction es with
  | nil => simp [ShortEntries]
  | cons e es ih => rw [ShortEntries, ih, List.forall_mem_cons, and_assoc]

end Value

/-! ## Writing -/

theorem writeInteger_failsUnless (n : Int) : FailsUnless (Value.writeInteger n) (ShortInt n) .longInteger := by
  unfold Value.writeInteger
  split
  · next hlong => exact ⟨Nat.not_le.mpr hlong, rfl⟩
  · exact .of_ok

theorem Key.written_failsUnless (k : Key) : FailsUnless k.written k.Short .longInteger := by
  cases k with
  | int n => exact writeInteger_failsUnless n
  | _ => exact trivial

mutual

theorem Rule.written_failsUnless : ∀ r : Rule, FailsUnless r.written r.Short .longInteger
  | .operators _ => .of_ok
  | .nested fields => (Rule.writtenFields_failsUnless fields).map

theorem Rule.writtenFields_failsUnless : ∀ fields : List (Key × Rule),
    FailsUnless (Rule.writtenFields fields) (Rule.ShortFields fields) .longInteger
  | [] => .of_ok
  | (k, r) :: rest => k.written_failsUnless.bind fun _ => (Rule.written_failsUnless r).bind fun _ =>
      (Rule.writtenFields_failsUnless rest).map

end

theorem FieldPolicy.written_failsUnless (p : FieldPolicy) :
    FailsUnless p.written (Rule.ShortFields p.filterable ∧ ∀ e ∈ p.sortable, e.1.Short) .longInteger :=
  (Rule.writtenFields_failsUnless p.filterable).bind fun _ =>
    .map (.mapM fun e _ => e.1.written_failsUnless.map)

namespace Value

mutual

/-- Only longer integers keep a value from being written down. -/
theorem written_failsUnless : ∀ v : Value, FailsUnless v.written v.Short .longInteger
  | int n => writeInteger_failsUnless n
  | list xs => (writtenAll_failsUnless xs).map
  | tuple xs => (writtenAll_failsUnless xs).map
  | set [] => .of_ok
  | set (x :: xs) => (writtenAll_failsUnless (x :: xs)).map
  | map es => (writtenEntries_failsUnless es).map
  | rule r => r.written_failsUnless
  | policy p => p.written_failsUnless
  | none | bool _ | float _ | text _ | bytes _ | operator _ | direction _
  | object _ _ | items _ => .of_ok

theorem writtenAll_failsUnless : ∀ xs : List Value, FailsUnless (writtenAll xs) (ShortAll xs) .longInteger
  | [] => .of_ok
  | x :: xs => (written_failsUnless x).bind fun _ => (writtenAll_failsUnless xs).map

theorem writtenEntries_failsUnless : ∀ es : List (Key × Value),
    FailsUnless (writtenEntries es) (ShortEntries es) .longInteger
  | [] => .of_ok
  | (k, v) :: rest => k.written_failsUnless.bind fun _ => (written_failsUnless v).bind fun _ =>
      (writtenEntries_failsUnless rest).map

end

theorem display_succeeds {v : Value} (h : v.Short) : Succeeds v.display := by
  cases v with
  | text s => exact ⟨s, rfl⟩
  | operator op => exact ⟨_, rfl⟩
  | direction d => exact ⟨_, rfl⟩
  | _ => exact (written_failsUnless _).succeeds h

end Value
end Listing
