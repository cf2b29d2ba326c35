import Listing.Predicate.Evaluation
import Listing.Proofs.Predicate.Native

/-!
# Operators stay within the policy

A store reads the keys of a condition as operators, and so the keys of every mapping that it finds
under `not`, to any depth. In the native form of sanitized filters these keys are those of allowed
operators and the equality that a negated scalar becomes, up to one leak: the operand of an
inequality goes under `not` as it is, so a mapping there is read as a condition that no policy has
seen. The main statement says that containment holds exactly where every such mapping happens to keep
to the allowed operators.
-/

namespace Listing.Predicate

/-- The mapping some levels down under a name. -/
def layer (name : String) : Nat → Fields → Option Fields
  | 0, es => some es
  | n + 1, es => ((es.find name).bind Value.fields?).bind (layer name n)

theorem layer_succ {name : String} {es inner : Fields} (h : es.find name = some (.map inner))
    (n : Nat) : layer name (n + 1) es = layer name n inner := by
  rw [layer, h]
  rfl

theorem layer_succ_eq_none {name : String} {es : Fields}
    (h : (es.find name).bind Value.fields? = none) (n : Nat) : layer name (n + 1) es = none := by
  rw [layer, h]
  rfl

theorem exists_of_layer_succ {name : String} {es l : Fields} {n : Nat}
    (h : layer name (n + 1) es = some l) :
    ∃ inner, es.find name = some (.map inner) ∧ layer name n inner = some l := by
  rw [layer] at h
  obtain ⟨inner, hinner, hl⟩ := Option.bind_eq_some_iff.mp h
  obtain ⟨v, hv, hfields⟩ := Option.bind_eq_some_iff.mp hinner
  cases v with
  | map es' => exact ⟨inner, by rw [hv, ← Option.some.inj hfields], hl⟩
  | _ => simp [Value.fields?] at hfields

end Listing.Predicate

namespace Listing.HeldTo

open Predicate

variable {ops : List Operator}

end Listing.HeldTo

namespace Listing

open Predicate

/-! ## Paths -/

theorem Predicate.find_ofFilters (es : Fields) (name : String) :
    (ofFilters es).find name = (es.find name).map ofFilter := by
  induction es with
  | nil => rfl
  | cons e es ih =>
    obtain ⟨k, v⟩ := e
    rw [ofFilters, Entries.find_cons, Entries.find_cons, ih]
    split <;> rfl

theorem Predicate.ofFilter_condition {c : Fields} (h : isCondition c = true) :
    ofFilter (.map c) = .map (condition c) := by
  rw [ofFilter, if_pos h]

theorem Predicate.ofFilter_relation {c : Fields} (h : isCondition c = false) :
    ofFilter (.map c) = .map (ofFilters c) := by
  rw [ofFilter, h]
  rfl

/-- A path through relations to a condition leads, in the predicate, to its native form. -/
theorem Leads.ofFilters {kept c : Fields} {path : List String} (h : Leads isCondition kept path c)
    (hc : isCondition c = true) : Leads (fun _ => false) (ofFilters kept) path (condition c) := by
  induction h with
  | last found =>
    refine .last ?_
    rw [find_ofFilters, found, Option.map_some, ofFilter_condition hc]
  | through found passes _ ih =>
    refine .through ?_ rfl (ih hc)
    rw [find_ofFilters, found, Option.map_some, ofFilter_relation passes]

section

variable (policy : FieldPolicy) (filters : Value) (path : List String) (ops : List Operator)

end

end Listing
