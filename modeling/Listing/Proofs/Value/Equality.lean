import Listing.Proofs.Entries
import Listing.Value.Equality

/-!
# Equal values

When texts, integers and mappings are equal: texts and integers as such, mappings if they are of one
length and each entry of the one has an equal value in the other.
-/

namespace Listing.Value

theorem compareNumbers?_int (a b : Int) :
    compareNumbers? (.inl ⟨a, 0⟩) (.inl ⟨b, 0⟩) = some (compare a b) := by
  have hscale : ∀ n : Int, Dyadic.mantissaAt ⟨n, 0⟩ 0 = n := by
    intro n
    simp [Dyadic.mantissaAt]
  rw [compareNumbers?, Dyadic.compare]
  dsimp only
  rw [Int.min_self, hscale, hscale]

@[simp] theorem same_text (s t : String) : same (.text s) (.text t) = (s == t) := rfl

@[simp] theorem same_int (a b : Int) : same (.int a) (.int b) = (a == b) := by
  have hsame : same (.int a) (.int b) =
      (compareNumbers? (.inl ⟨a, 0⟩) (.inl ⟨b, 0⟩) == some Ordering.eq) := rfl
  rw [hsame, compareNumbers?_int, Bool.eq_iff_iff, beq_iff_eq, beq_iff_eq, Option.some.injEq,
    Int.compare_eq_eq]

@[simp] theorem same_bool (a b : Bool) : same (.bool a) (.bool b) = (a == b) := by
  cases a <;> cases b <;> rfl

theorem sameAll_self {xs : List Value} (h : ∀ x ∈ xs, same x x = true) : sameAll xs xs = true := by
  induction xs with
  | nil => rfl
  | cons x xs ih =>
    obtain ⟨hx, hxs⟩ := List.forall_mem_cons.mp h
    rw [sameAll, hx, ih hxs]
    rfl

theorem allHeld_iff {es fs : Fields} :
    allHeld es fs = true ↔ ∀ e ∈ es, ∃ w, fs.get? e.1 = some w ∧ same e.2 w = true := by
  induction es with
  | nil => simp [allHeld]
  | cons e es ih =>
    obtain ⟨k, v⟩ := e
    rw [allHeld, Bool.and_eq_true, ih, List.forall_mem_cons]
    refine and_congr_left fun _ => ?_
    rw [Entries.get?]
    cases fs.find? (·.1.same k) with
    | none => simp
    | some e => simp

theorem same_map_iff {es fs : Fields} :
    same (.map es) (.map fs) = true ↔
      es.length = fs.length ∧ ∀ e ∈ es, ∃ w, fs.get? e.1 = some w ∧ same e.2 w = true := by
  rw [same, Bool.and_eq_true, beq_iff_eq, allHeld_iff]

end Listing.Value
