import Listing.Proofs.Predicate.Conjunction
import Listing.Proofs.Sql.ThreeValued
import Listing.Sql.Compile

/-!
# Joined predicates over a database

The clause of joined predicates is the conjunction of their clauses, so it selects exactly the rows
that each of them selects.
-/

namespace Listing.Sql

open Outcome

variable (schema : Schema) (registry : Registry) (m : Model)

theorem predicateAll_eq_mapM (ps : List Value) :
    predicateAll schema registry m ps = ps.mapM (compile schema registry m) := by
  induction ps with
  | nil => rfl
  | cons p ps ih =>
    rw [predicateAll, ih, List.mapM_cons]
    rfl

theorem predicateAll_map {clauses : List Fields} {cs : List Clause}
    (h : List.Forall₂ (fun es c => compile schema registry m (.map es) = .ok c) clauses cs) :
    predicateAll schema registry m (clauses.map .map) = .ok cs := by
  rw [predicateAll_eq_mapM, mapM_eq_ok, List.forall₂_map_left_iff]
  exact h

theorem predicatePart_junction {k : Key} {j : Predicate.Junction} (hk : Predicate.junction? k = some j)
    (ps : List Value) : predicatePart schema registry m k (.list ps) =
      (do return joined j (← predicateAll schema registry m ps)) := by
  rw [predicatePart, hk]

theorem junction?_key (j : Predicate.Junction) :
    Predicate.junction? (.text j.key) = some j := by
  cases j <;> rfl

theorem compile_joined {clauses : List Fields} {cs : List Clause}
    (h : List.Forall₂ (fun es c => compile schema registry m (.map es) = .ok c) clauses cs) :
    compile schema registry m (.map (Predicate.joined clauses)) =
      .ok (Clause.conjunction (cs.map .clause)) := by
  match h with
  | .nil => rfl
  | .cons hc .nil => exact hc
  | .cons hc (.cons hd h) =>
    have hall := predicateAll_map schema registry m (.cons hc (.cons hd h))
    have hkey := junction?_key Predicate.Junction.all
    rw [Predicate.joined, compile, predicateClause, predicateParts,
      predicatePart_junction schema registry m hkey, hall, predicateParts]
    · rfl
    · simp
    · simp

def clauseOf (predicate : Value) : Except Failure Clause :=
  if predicate.isTrue then do compile schema registry m (.map (← predicate.toFields))
  else .ok (.constant true)

theorem exists_clauses_of_mapM {predicates : List Value} {cs : List Clause}
    (h : List.Forall₂ (fun p c => clauseOf schema registry m p = .ok c) predicates cs) :
    ∃ clauses ds, List.Forall₂ (fun p es => Value.toFields p = .ok es)
        (predicates.filter (·.isTrue)) clauses ∧
      List.Forall₂ (fun es c => compile schema registry m (.map es) = .ok c) clauses ds ∧
      ∀ db row, (ds.all fun c => c.selects db row) = cs.all fun c => c.selects db row := by
  induction h with
  | nil => exact ⟨[], [], .nil, .nil, fun _ _ => rfl⟩
  | @cons p c predicates cs hc _ ih =>
    obtain ⟨clauses, ds, hfields, hcompile, hselects⟩ := ih
    rw [clauseOf] at hc
    split at hc
    · next htrue =>
      obtain ⟨es, hes, hcomp⟩ := bind_eq_ok.mp hc
      refine ⟨es :: clauses, c :: ds, ?_, .cons hcomp hcompile, fun db row => ?_⟩
      · rw [List.filter_cons_of_pos htrue]
        exact .cons hes hfields
      · rw [List.all_cons, List.all_cons, hselects]
    · next hfalse =>
      refine ⟨clauses, ds, ?_, hcompile, fun db row => ?_⟩
      · rwa [List.filter_cons_of_neg hfalse]
      · rw [List.all_cons, hselects, ← Except.ok.inj hc]
        rfl

/-- Where each of several predicates has a clause, so have the joined ones, and it selects exactly the
rows that each of the clauses selects. -/
theorem compile_conjunction {predicates : List Value} {cs : List Clause}
    (h : predicates.mapM (clauseOf schema registry m) = .ok cs) :
    ∃ q c, Predicate.conjunction predicates = .ok q ∧ compile schema registry m (.map q) = .ok c ∧
      ∀ db row, c.selects db row = cs.all fun d => d.selects db row := by
  obtain ⟨clauses, ds, hfields, hcompile, hselects⟩ :=
    exists_clauses_of_mapM schema registry m (mapM_eq_ok.mp h)
  refine ⟨Predicate.joined clauses, _, ?_, compile_joined schema registry m hcompile,
    fun db row => ?_⟩
  · rw [Predicate.conjunction_eq, mapM_eq_ok.mpr hfields]
    rfl
  · rw [Clause.selects_conjunction, hselects]

end Listing.Sql
