import Listing.Proofs.Sql.Native

/-!
# What is at fault in a predicate

An entry of a predicate is at fault if somewhere in it, within junctions and below relations, a key names
nothing on the model that is reached there, a relation is given no predicate, a column no condition, or a
condition has a key without an operator.
-/

namespace Listing
namespace Sql

open Predicate

/-! ## Faults -/

def Registry.Covers (registry : Registry) (k : Key) : Prop :=
  ∃ op, k.name?.bind registry.get? = some op

/-- The failures that an entry of a condition on a term of a model is at fault for: its key has no operator,
or it negates a condition with such an entry. The mode needs none. -/
inductive Unregistered (registry : Registry) (m : Model) : Key → Value → Failure → Prop
  | key {k : Key} {v : Value} : isModeKey k = false → (isNotKey k = true → v.fields? = none) →
      ¬ registry.Covers k → Unregistered registry m k v (m.unsupported k)
  | negated {k : Key} {inner : Fields} {e : Key × Value} {f : Failure} : isNotKey k = true →
      e ∈ inner → Unregistered registry m e.1 e.2 f → Unregistered registry m k (.map inner) f

/-- The failures that an entry of a predicate on a model is at fault for, here or below. -/
inductive Fault (schema : Schema) (registry : Registry) : Model → Key → Value → Failure → Prop
  /-- A key names no junction, no relation and no term. -/
  | unknown {m : Model} {k : Key} {v : Value} : junction? k = none →
      k.name?.bind m.relation? = none → k.name?.bind m.term? = none →
      Fault schema registry m k v (m.unsupported k)
  /-- A relation is given no mapping, or one that reads as a condition, such as the empty one. -/
  | relation {m : Model} {k : Key} {v : Value} {r : Relation} : junction? k = none →
      k.name?.bind m.relation? = some r →
      (∀ inner, v = .map inner → isNativeCondition inner = true) →
      Fault schema registry m k v (m.unsupported k)
  /-- A term is given a mapping that reads as no condition. -/
  | term {m : Model} {k : Key} {t : Term} {inner : Fields} : junction? k = none →
      k.name?.bind m.relation? = none → k.name?.bind m.term? = some t →
      isNativeCondition inner = false → Fault schema registry m k (.map inner) (m.unsupported k)
  /-- The condition on a term has an entry without an operator. -/
  | condition {m : Model} {k : Key} {t : Term} {inner : Fields} {e : Key × Value} {f : Failure} :
      junction? k = none → k.name?.bind m.relation? = none → k.name?.bind m.term? = some t →
      isNativeCondition inner = true → e ∈ inner → Unregistered registry m e.1 e.2 f →
      Fault schema registry m k (.map inner) f
  /-- An entry of a joined predicate is at fault. -/
  | junction {m : Model} {k : Key} {j : Junction} {inner : Fields} {e : Key × Value} {f : Failure} :
      junction? k = some j → e ∈ inner → Fault schema registry m e.1 e.2 f →
      Fault schema registry m k (.map inner) f
  /-- An entry of one of several joined predicates is at fault. -/
  | junctions {m : Model} {k : Key} {j : Junction} {ps : List Value} {inner : Fields}
      {e : Key × Value} {f : Failure} : junction? k = some j → .map inner ∈ ps → e ∈ inner →
      Fault schema registry m e.1 e.2 f → Fault schema registry m k (.list ps) f
  /-- An entry of the predicate below a relation is at fault. -/
  | related {m target : Model} {k : Key} {r : Relation} {inner : Fields} {e : Key × Value}
      {f : Failure} : junction? k = none → k.name?.bind m.relation? = some r →
      schema.model? r.target = some target → isNativeCondition inner = false → e ∈ inner →
      Fault schema registry target e.1 e.2 f → Fault schema registry m k (.map inner) f

variable {schema : Schema} {registry : Registry} {m : Model} {t : Term} {k : Key} {v : Value}
  {es rest inner : Fields} {f : Failure}

theorem Unregistered.exists_key (h : Unregistered registry m k v f) : ∃ bad, f = m.unsupported bad := by
  induction h with
  | @key k => exact ⟨k, rfl⟩
  | negated _ _ _ ih => exact ih

theorem Fault.exists_key (h : Fault schema registry m k v f) :
    ∃ (m' : Model) (bad : Key), f = m'.unsupported bad := by
  induction h with
  | @unknown m k | @relation m k | @term m k => exact ⟨m, k, rfl⟩
  | @condition m _ _ _ _ _ _ _ _ _ _ h =>
    obtain ⟨bad, hbad⟩ := h.exists_key
    exact ⟨m, bad, hbad⟩
  | junction _ _ _ ih | junctions _ _ _ _ ih | related _ _ _ _ _ _ ih => exact ih

/-! ## Entries of conditions -/

theorem isModeKey_of_isNotKey (h : isNotKey k = true) : isModeKey k = false := by
  rw [isNotKey, Key.same_name, beq_iff_eq] at h
  rw [isModeKey, Key.same_name, h]
  rfl

theorem not_unregistered_mode (hk : isModeKey k = true) : ¬ Unregistered registry m k v f := by
  intro h
  cases h with
  | key hmode => exact absurd hk (by simp [hmode])
  | negated hnot => exact absurd hk (by simp [isModeKey_of_isNotKey hnot])

theorem unregistered_negated_iff (hk : isNotKey k = true) :
    Unregistered registry m k (.map inner) f ↔ ∃ e ∈ inner, Unregistered registry m e.1 e.2 f := by
  constructor
  · intro h
    cases h with
    | key _ hnot => nomatch hnot hk
    | negated _ hmem h => exact ⟨_, hmem, h⟩
  · rintro ⟨e, hmem, h⟩
    exact .negated hk hmem h

theorem unregistered_operand_iff (hmode : isModeKey k = false)
    (hnot : isNotKey k = true → v.fields? = none) :
    Unregistered registry m k v f ↔ ¬ registry.Covers k ∧ f = m.unsupported k := by
  constructor
  · intro h
    cases h with
    | key _ _ hk => exact ⟨hk, rfl⟩
    | negated hk => nomatch hnot hk
  · rintro ⟨hk, rfl⟩
    exact .key hmode hnot hk

/-! ## Entries of predicates -/

theorem fault_junction_iff {j : Junction} (hk : junction? k = some j) :
    Fault schema registry m k (.map inner) f ↔
      ∃ e ∈ inner, Fault schema registry m e.1 e.2 f := by
  have hnone : junction? k ≠ none := by simp [hk]
  constructor
  · intro h
    cases h with
    | unknown hk' | relation hk' | term hk' | condition hk' | related hk' => exact absurd hk' hnone
    | junction _ hmem h => exact ⟨_, hmem, h⟩
  · rintro ⟨e, hmem, h⟩
    exact .junction hk hmem h

theorem fault_junctions_iff {j : Junction} (hk : junction? k = some j) {ps : List Fields} :
    Fault schema registry m k (.list (ps.map .map)) f ↔
      ∃ inner ∈ ps, ∃ e ∈ inner, Fault schema registry m e.1 e.2 f := by
  have hnone : junction? k ≠ none := by simp [hk]
  constructor
  · intro h
    cases h with
    | unknown hk' | relation hk' => exact absurd hk' hnone
    | junctions _ hinner hmem h =>
      obtain ⟨inner, hps, heq⟩ := List.mem_map.mp hinner
      exact ⟨inner, hps, _, Value.map.inj heq ▸ hmem, h⟩
  · rintro ⟨inner, hps, e, hmem, h⟩
    exact .junctions hk (List.mem_map_of_mem hps) hmem h

section

variable (hk : junction? k = none)

include hk

theorem fault_related_iff {r : Relation} (hr : k.name?.bind m.relation? = some r) {target : Model}
    (htarget : schema.model? r.target = some target) (hinner : isNativeCondition inner = false) :
    Fault schema registry m k (.map inner) f ↔
      ∃ e ∈ inner, Fault schema registry target e.1 e.2 f := by
  constructor
  · intro h
    cases h with
    | unknown _ hr' | term _ hr' | condition _ hr' => nomatch hr.symm.trans hr'
    | relation _ _ hv => nomatch hinner.symm.trans (hv inner rfl)
    | junction hk' => nomatch hk.symm.trans hk'
    | related _ hr' htarget' _ hmem h =>
      obtain rfl := Option.some.inj (hr.symm.trans hr')
      obtain rfl := Option.some.inj (htarget.symm.trans htarget')
      exact ⟨_, hmem, h⟩
  · rintro ⟨e, hmem, h⟩
    exact .related hk hr htarget hinner hmem h

theorem fault_condition_iff (hr : k.name?.bind m.relation? = none) {t : Term}
    (ht : k.name?.bind m.term? = some t) (hinner : isNativeCondition inner = true) :
    Fault schema registry m k (.map inner) f ↔
      ∃ e ∈ inner, Unregistered registry m e.1 e.2 f := by
  constructor
  · intro h
    cases h with
    | unknown _ _ ht' => nomatch ht.symm.trans ht'
    | relation _ hr' | related _ hr' => nomatch hr.symm.trans hr'
    | term _ _ _ hinner' => exact absurd (hinner'.symm.trans hinner) Bool.false_ne_true
    | condition _ _ _ _ hmem h => exact ⟨_, hmem, h⟩
    | junction hk' => nomatch hk.symm.trans hk'
  · rintro ⟨e, hmem, h⟩
    exact .condition hk hr ht hinner hmem h

theorem not_fault_bare (hr : k.name?.bind m.relation? = none) {t : Term}
    (ht : k.name?.bind m.term? = some t) (hv : v.fields? = none) :
    ¬ Fault schema registry m k v f := by
  intro h
  cases h with
  | unknown _ _ ht' => nomatch ht.symm.trans ht'
  | relation _ hr' => nomatch hr.symm.trans hr'
  | junctions hk' => nomatch hk.symm.trans hk'
  | term | condition | junction | related => nomatch hv

end

end Sql
end Listing
