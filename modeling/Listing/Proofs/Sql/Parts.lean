import Listing.Proofs.Sql.ThreeValued
import Listing.Sql.Compile

/-!
# What clauses share with their parts

Joining clauses flattens them, absorbs truth values and pushes negations in. A property that a joined
clause has if its parts do, and that negation keeps, goes through all of that.
-/

namespace Listing.Sql

/-- Whether a part of a conjunction has a property of clauses, unless it is settled. -/
def Conjunct.Has (Q : Clause → Prop) : Conjunct → Prop
  | .clause c => Q c
  | .settled _ => True

structure Clause.Partwise (Q : Clause → Prop) : Prop where
  constant : ∀ b, Q (constant b)
  all_iff : ∀ cs, Q (all cs) ↔ ∀ c ∈ cs, Q c
  any_iff : ∀ cs, Q (any cs) ↔ ∀ c ∈ cs, Q c
  negate : ∀ c, Q c → c.negate.Has Q

namespace Clause.Partwise

variable {Q : Clause → Prop} (hQ : Partwise Q)

include hQ

theorem of_conjuncts {c : Clause} (h : Q c) : ∀ d ∈ c.conjuncts, Q d := by
  cases c with
  | all cs => exact (hQ.all_iff cs).mp h
  | _ => simpa [conjuncts] using h

theorem of_disjuncts {c : Clause} (h : Q c) : ∀ d ∈ c.disjuncts, Q d := by
  cases c with
  | any cs => exact (hQ.any_iff cs).mp h
  | _ => simpa [disjuncts] using h

theorem conjunction {parts : List Conjunct} (h : ∀ p ∈ parts, p.Has Q) :
    Q (Clause.conjunction parts) := by
  by_cases hsettled : Conjunct.settled false ∈ parts
  · rw [conjunction_of_settled hsettled]
    exact hQ.constant false
  · have hclauses : ∀ c ∈ clausesOf parts, Q c := fun c hc => h _ (mem_clausesOf.mp hc)
    rw [conjunction_of_open hsettled]
    split
    · exact hQ.constant true
    · next c hc => exact hclauses c (hc ▸ List.mem_singleton_self c)
    · rw [hQ.all_iff]
      intro d hd
      obtain ⟨c, hc, hdc⟩ := List.mem_flatMap.mp hd
      exact hQ.of_conjuncts (hclauses c hc) d hdc

theorem disjunction {cs : List Clause} (h : ∀ c ∈ cs, Q c) : Q (Clause.disjunction cs) := by
  match cs, h with
  | [], _ => exact hQ.constant false
  | [c], h => exact h c (List.mem_singleton_self c)
  | c :: d :: cs, h =>
    rw [Clause.disjunction, hQ.any_iff]
    · intro e he
      obtain ⟨c', hc', hec⟩ := List.mem_flatMap.mp he
      exact hQ.of_disjuncts (h c' hc') e hec
    · simp
    · simp

theorem joined {j : Predicate.Junction} {cs : List Clause} (h : ∀ c ∈ cs, Q c) :
    (Sql.joined j cs).Has Q := by
  cases j with
  | all =>
    refine hQ.conjunction fun p hp => ?_
    obtain ⟨c, hc, rfl⟩ := List.mem_map.mp hp
    exact h c hc
  | any => exact hQ.disjunction h
  | none => exact hQ.negate _ (hQ.disjunction h)

end Clause.Partwise
end Listing.Sql
