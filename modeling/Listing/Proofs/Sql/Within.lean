import Listing.Proofs.Sql.Native
import Listing.Proofs.Sql.Parts
import Listing.Proofs.Sql.Texts

/-!
# Clauses within a schema

A clause is within a model of a schema if what it tests are columns of the model or numbers computed from
them, and what it follows are relations of the model, to clauses within the models that they lead to. The
standard operators make clauses of the term that they are given and of no other.
-/

namespace Listing.Sql

open Outcome

/-- Whether a term is a column of a model, or a number computed from one. -/
def Model.Names (m : Model) (t : Term) : Prop := ∃ name, m.term? name = some t

/-- Whether a clause is about nothing but members of a model and of the models that relations lead to. -/
inductive Clause.Within (schema : Schema) : Model → Clause → Prop
  | constant {m : Model} {b : Bool} : Within schema m (.constant b)
  | compare {m : Model} {lowered : Bool} {t : Term} {sign : Sign} {bound : Bind} :
      m.Names t → Within schema m (.compare lowered t sign bound)
  | truth {m : Model} {t : Term} {equal b : Bool} : m.Names t → Within schema m (.truth t equal b)
  | null {m : Model} {t : Term} {isNull : Bool} : m.Names t → Within schema m (.null t isNull)
  | member {m : Model} {t : Term} {among : Bool} {bounds : List Bind} :
      m.Names t → Within schema m (.member t among bounds)
  | like {m : Model} {lowered : Bool} {t : Term} {place : Place} {text : String} :
      m.Names t → Within schema m (.like lowered t place text)
  | related {m target : Model} {name : String} {r : Relation} {inner : Clause} :
      m.relation? name = some r → schema.model? r.target = some target → Within schema target inner →
      Within schema m (.related r inner)
  | not {m : Model} {c : Clause} : Within schema m c → Within schema m (.not c)
  | all {m : Model} {cs : List Clause} : (∀ c ∈ cs, Within schema m c) → Within schema m (.all cs)
  | any {m : Model} {cs : List Clause} : (∀ c ∈ cs, Within schema m c) → Within schema m (.any cs)

variable {schema : Schema} {m : Model} {t : Term} {c : Clause}

theorem Clause.Within.negate (h : c.Within schema m) : c.negate.Has (Within schema m) := by
  cases c with
  | constant b => trivial
  | compare lowered t sign bound =>
    cases h with
    | compare ht => exact .compare ht
  | truth t equal b =>
    cases h with
    | truth ht => exact .truth ht
  | null t isNull =>
    cases h with
    | null ht => exact .null ht
  | member t among bounds =>
    cases h with
    | member ht => exact .member ht
  | not c =>
    cases c with
    | like lowered t place text =>
      -- a search that is negated twice is the search
      cases h with
      | not h => exact h
    | _ => exact .not h
  | _ => exact .not h

theorem Clause.partwise_within (schema : Schema) (m : Model) : Partwise (Within schema m) where
  constant _ := .constant
  all_iff _ := ⟨fun | .all h => h, .all⟩
  any_iff _ := ⟨fun | .any h => h, .any⟩
  negate _ h := h.negate

/-! ## Operators -/

theorem NativeOperator.comparison_within (ht : m.Names t) {lowered : Bool} {sign : Sign} {v : Value}
    (h : comparison lowered t sign v = .ok c) : c.Within schema m := by
  unfold comparison at h
  split at h
  · obtain rfl := Except.ok.inj h
    exact .null ht
  · obtain rfl := Except.ok.inj h
    exact .truth ht
  · nomatch h
  · nomatch h
  · obtain rfl := Except.ok.inj h
    exact .compare ht

theorem NativeOperator.equality_within (ht : m.Names t) {sign : Sign} {v : Value} {insensitive : Bool}
    (h : equality sign t v insensitive = .ok c) : c.Within schema m := by
  unfold equality at h
  split at h
  · split at h
    · exact comparison_within ht h
    · exact comparison_within ht h
  · exact comparison_within ht h

theorem NativeOperator.search_within (ht : m.Names t) {place : Place} {v : Value} {insensitive : Bool}
    (h : search place t v insensitive = .ok c) : c.Within schema m := by
  obtain ⟨s, -, h⟩ := bind_eq_ok.mp h
  rw [pure_eq_ok] at h
  exact h ▸ .like ht

theorem NativeOperator.standardApply_within (ht : m.Names t) {key : NativeKey} {v : Value}
    {insensitive : Bool} (h : standardApply key t v insensitive = .ok c) : c.Within schema m := by
  cases key with
  | equals | not => exact equality_within ht h
  | gt | gte | lt | lte => exact comparison_within ht h
  | isIn | notIn =>
    obtain rfl := Except.ok.inj h
    exact .member ht
  | contains | startsWith | endsWith => exact search_within ht h
  | mode =>
    obtain rfl := Except.ok.inj h
    exact .constant
  | is =>
    rw [standardApply] at h
    cases hcheck : Predicate.nullCheck v with
    | other =>
      rw [hcheck] at h
      exact comparison_within ht h
    | null | present =>
      rw [hcheck] at h
      obtain rfl := Except.ok.inj h
      exact .null ht

end Listing.Sql
