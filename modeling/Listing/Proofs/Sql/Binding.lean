import Listing.Proofs.Outcome
import Listing.Proofs.Sql.Parts

/-!
# Values that can be bound

A statement runs only if each value of its clause can be prepared and stored. Joining and negating
clauses binds no other values.
-/

namespace Listing.Sql

open Outcome

def Bind.Storable (b : Bind) : Prop := ∃ c, b.cell = .ok c

def Clause.Storable (c : Clause) : Prop := ∀ b ∈ c.binds, b.Storable

def Conjunct.Storable : Conjunct → Prop
  | .clause c => c.Storable
  | .settled _ => True

def storeEach (vs : List Value) : Except Failure PUnit := do
  for v in vs do
    let _ ← Bind.store v

theorem checkBinds_eq (binds : List Bind) :
    checkBinds binds = binds.mapM Bind.prepare >>= storeEach := rfl

theorem storeEach_cons (v : Value) (vs : List Value) :
    storeEach (v :: vs) = (Bind.store v >>= fun _ => storeEach vs) := by
  unfold storeEach
  cases h : Bind.store v <;> rw [List.forIn_cons, h] <;> rfl

theorem storeEach_append {vs : List Value} (h : ∀ v ∈ vs, ∃ c, Bind.store v = .ok c)
    (ws : List Value) : storeEach (vs ++ ws) = storeEach ws := by
  induction vs with
  | nil => rfl
  | cons v vs ih =>
    obtain ⟨⟨c, hc⟩, hvs⟩ := List.forall_mem_cons.mp h
    rw [List.cons_append, storeEach_cons, hc]
    exact ih hvs

theorem checkBinds_append {binds : List Bind} (h : ∀ b ∈ binds, b.Storable) (others : List Bind) :
    checkBinds (binds ++ others) = checkBinds others := by
  have hprepare : ∀ b ∈ binds, ∃ v, b.prepare = .ok v := by
    intro b hb
    obtain ⟨c, hc⟩ := h b hb
    obtain ⟨v, hv, -⟩ := bind_eq_ok.mp hc
    exact ⟨v, hv⟩
  obtain ⟨vs, hvs⟩ := exists_mapM_eq_ok_iff.mpr hprepare
  have hstore : ∀ v ∈ vs, ∃ c, Bind.store v = .ok c := by
    intro v hv
    obtain ⟨b, hb, hbv⟩ := exists_source (mapM_eq_ok.mp hvs) hv
    obtain ⟨c, hc⟩ := h b hb
    rw [Bind.cell, hbv] at hc
    exact ⟨c, hc⟩
  rw [checkBinds_eq, checkBinds_eq, List.mapM_append, hvs]
  cases others.mapM Bind.prepare with
  | error e => rfl
  | ok ws => exact storeEach_append hstore ws

theorem checkBinds_ok {binds : List Bind} (h : ∀ b ∈ binds, b.Storable) :
    checkBinds binds = .ok () := by
  rw [← List.append_nil binds, checkBinds_append h]
  rfl

theorem storable_of_storeEach {vs : List Value} (h : storeEach vs = .ok PUnit.unit) :
    ∀ v ∈ vs, ∃ c, Bind.store v = .ok c := by
  induction vs with
  | nil => exact fun _ hv => nomatch hv
  | cons v vs ih =>
    rw [storeEach_cons] at h
    obtain ⟨c, hc, hrest⟩ := bind_eq_ok.mp h
    exact List.forall_mem_cons.mpr ⟨⟨c, hc⟩, ih hrest⟩

theorem storable_of_checkBinds {binds : List Bind} (h : checkBinds binds = .ok ()) :
    ∀ b ∈ binds, b.Storable := by
  rw [checkBinds_eq] at h
  obtain ⟨vs, hvs, hstored⟩ := bind_eq_ok.mp h
  intro b hb
  obtain ⟨v, hv, hbv⟩ := exists_result (mapM_eq_ok.mp hvs) hb
  obtain ⟨c, hc⟩ := storable_of_storeEach hstored v hv
  exact ⟨c, bind_eq_ok.mpr ⟨v, hbv, hc⟩⟩

theorem checkBinds_int (n : Int) :
    checkBinds [⟨.plain, .int n⟩] = if fits n then .ok () else .error .integerPastStorage := by
  have hstore : Bind.store (.int n) =
    if fits n then .ok (.integer n) else .error .integerPastStorage := rfl
  have hprepare : [(⟨.plain, .int n⟩ : Bind)].mapM Bind.prepare = .ok [.int n] := rfl
  rw [checkBinds_eq, hprepare]
  refine (storeEach_cons (.int n) []).trans ?_
  rw [hstore]
  split <;> rfl

namespace Clause

theorem bindsAll_eq (cs : List Clause) : bindsAll cs = cs.flatMap binds := by
  induction cs with
  | nil => rfl
  | cons c cs ih => rw [bindsAll, ih, List.flatMap_cons]

theorem storable_all_iff {cs : List Clause} : (all cs).Storable ↔ ∀ c ∈ cs, c.Storable := by
  rw [Storable, binds, bindsAll_eq, List.forall_mem_flatMap]
  rfl

theorem storable_any_iff {cs : List Clause} : (any cs).Storable ↔ ∀ c ∈ cs, c.Storable := by
  rw [Storable, binds, bindsAll_eq, List.forall_mem_flatMap]
  rfl

theorem storable_constant (b : Bool) : (constant b).Storable := fun _ h => nomatch h

theorem storable_negate {c : Clause} (h : c.Storable) : c.negate.Storable := by
  cases c with
  | constant b => trivial
  | not c => cases c <;> exact h
  | _ => exact h

theorem partwise_storable : Partwise Storable where
  constant := storable_constant
  all_iff _ := storable_all_iff
  any_iff _ := storable_any_iff
  negate _ h := storable_negate h

theorem storable_conjunction {parts : List Conjunct} (h : ∀ p ∈ parts, p.Storable) :
    (conjunction parts).Storable := partwise_storable.conjunction h

end Clause
end Listing.Sql
