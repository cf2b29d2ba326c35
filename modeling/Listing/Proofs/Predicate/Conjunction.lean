import Listing.Predicate.Evaluation
import Listing.Proofs.Outcome

/-!
# Joined predicates

What may stand for a predicate, taken alone, admits a record or does not: whatever counts as false
asks for nothing, and a row of pairs asks for the mapping that it writes. A record satisfies joined
predicates exactly if each of them admits it.
-/

namespace Listing.Predicate

open Outcome

def isYes : Except Failure Bool → Bool
  | .ok b => b
  | .error _ => false

/-- Whether what may stand for a predicate admits a record. -/
def admits (predicate record : Value) : Bool :=
  !predicate.isTrue || isYes (predicate.toFields >>= holds record)

theorem isYes_iff {x : Except Failure Bool} : isYes x = true ↔ x = .ok true := by
  cases x <;> simp [isYes]

theorem admits_iff {predicate record : Value} :
    admits predicate record = true ↔
      predicate.isTrue = true → ∃ es, predicate.toFields = .ok es ∧ holds record es = .ok true := by
  rw [admits, Bool.or_eq_true, isYes_iff, bind_eq_ok]
  cases predicate.isTrue <;> simp

theorem admits_map {es : Fields} {record : Value} :
    admits (.map es) record = true ↔ valueHolds record (.map es) = .ok true := by
  rw [admits_iff, valueHolds]
  cases es with
  | nil => simp [Value.isTrue, holds]
  | cons e es => simp [Value.isTrue, Value.toFields]

theorem holds_cons {record : Value} {k : Key} {v : Value} {es : Fields} :
    holds record ((k, v) :: es) = .ok true ↔
      entryHolds record k v = .ok true ∧ holds record es = .ok true := by
  rw [holds, bind_eq_ok]
  constructor
  · rintro ⟨b, hb, hrest⟩
    cases b with
    | false => exact absurd hrest (by simp [pure, Except.pure])
    | true => exact ⟨hb, hrest⟩
  · rintro ⟨hentry, hrest⟩
    exact ⟨true, hentry, hrest⟩

theorem allHold_eq_true {record : Value} {ps : List Value} :
    allHold record ps = .ok true ↔ ∀ p ∈ ps, valueHolds record p = .ok true := by
  induction ps with
  | nil => simp [allHold]
  | cons p ps ih =>
    rw [allHold, bind_eq_ok, List.forall_mem_cons, ← ih]
    constructor
    · rintro ⟨b, hb, hrest⟩
      cases b with
      | false => exact absurd hrest (by simp [pure, Except.pure])
      | true => exact ⟨hb, hrest⟩
    · rintro ⟨hp, hrest⟩
      exact ⟨true, hp, hrest⟩

@[simp] theorem entryHolds_all (record : Value) (ps : List Value) :
    entryHolds record (.text Junction.all.key) (.list ps) = allHold record ps := by
  rw [entryHolds]
  rfl

@[simp] theorem entryHolds_any (record : Value) (ps : List Value) :
    entryHolds record (.text Junction.any.key) (.list ps) = anyHolds record ps := by
  rw [entryHolds]
  rfl

def joined : List Fields → Fields
  | [] => []
  | [es] => es
  | clauses => [(.text Junction.all.key, .list (clauses.map .map))]

theorem conjunction_eq (predicates : List Value) :
    conjunction predicates =
      (do return joined (← (predicates.filter (·.isTrue)).mapM Value.toFields)) := by
  unfold conjunction
  cases (predicates.filter (·.isTrue)).mapM Value.toFields with
  | error e => rfl
  | ok clauses => match clauses with
    | [] | [_] | _ :: _ :: _ => rfl

theorem holds_joined {record : Value} {clauses : List Fields} :
    holds record (joined clauses) = .ok true ↔ ∀ es ∈ clauses, holds record es = .ok true := by
  match clauses with
  | [] => simp [joined, holds]
  | [es] => simp [joined]
  | es :: fs :: rest =>
    rw [joined, holds_cons, entryHolds_all, allHold_eq_true, holds]
    · simp [valueHolds]
    · simp
    · simp

/-- A record satisfies joined predicates exactly if each of them admits it. -/
theorem holds_conjunction {predicates : List Value} {q : Fields} (h : conjunction predicates = .ok q)
    (record : Value) :
    holds record q = .ok true ↔ ∀ p ∈ predicates, admits p record = true := by
  rw [conjunction_eq, bind_eq_ok] at h
  obtain ⟨clauses, hclauses, hq⟩ := h
  rw [pure_eq_ok] at hq
  subst hq
  rw [holds_joined]
  have hpairs := mapM_eq_ok.mp hclauses
  constructor
  · intro hall p hp
    rw [admits_iff]
    intro htrue
    obtain ⟨es, hes, hfields⟩ := exists_result hpairs (List.mem_filter.mpr ⟨hp, htrue⟩)
    exact ⟨es, hfields, hall es hes⟩
  · intro hall es hes
    obtain ⟨p, hp, hfields⟩ := exists_source hpairs hes
    obtain ⟨hmem, htrue⟩ := List.mem_filter.mp hp
    obtain ⟨es', hes', hholds⟩ := admits_iff.mp (hall p hmem) htrue
    rw [hfields] at hes'
    rwa [Except.ok.inj hes']

end Listing.Predicate
