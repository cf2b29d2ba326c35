import Listing.Proofs.Memory.Order

/-!
# Matching and ordering that give a result

Sorting asks for the order of two elements of the row and of nothing else, so it gives a row if each such
question has an answer. Null, truth values, numbers and texts always have one, also where a number is
none.
-/

namespace Listing

open Outcome

/-! ## Sorting -/

namespace Sorting

variable {α : Type} {below : Below α} {P : α → Prop}

theorem runLength_succeeds (hbelow : ∀ a b, P a → P b → Succeeds (below a b)) (wanted : Bool)
    {last : α} {xs : List α} (hlast : P last) (hxs : ∀ x ∈ xs, P x) :
    Succeeds (runLength below wanted last xs) := by
  induction xs generalizing last with
  | nil => exact ⟨0, rfl⟩
  | cons x xs ih =>
    obtain ⟨hx, hxs⟩ := List.forall_mem_cons.mp hxs
    exact (hbelow x last hx hlast).bind fun _ => .ite ((ih hx hxs).map _) ⟨0, rfl⟩

theorem placeBetween_succeeds {sorted : Array α} {x : α}
    (hbelow : ∀ y ∈ sorted, Succeeds (below x y)) (fuel low high : Nat) :
    Succeeds (placeBetween below sorted x fuel low high) := by
  induction fuel generalizing low high with
  | zero => exact ⟨low, rfl⟩
  | succ fuel ih =>
    rw [placeBetween]
    refine .ite ?_ ⟨low, rfl⟩
    dsimp only
    split
    · next y hy =>
      exact (hbelow y (Array.mem_of_getElem? hy)).bind fun _ => .ite (ih _ _) (ih _ _)
    · exact ⟨low, rfl⟩

theorem foldlM_insert_succeeds (hbelow : ∀ a b, P a → P b → Succeeds (below a b)) {xs : List α}
    (hxs : ∀ x ∈ xs, P x) {sorted : Array α} (hsorted : ∀ y ∈ sorted.toList, P y) :
    Succeeds (xs.foldlM (insert below) sorted) := by
  refine .foldlM (P := fun row => ∀ y ∈ row.toList, P y) ?_ ?_ hsorted
  · intro row hrow x hx
    refine Succeeds.map (placeBetween_succeeds (fun y hy => ?_) _ _ _) _
    exact hbelow x y (hxs x hx) (hrow y (Array.mem_toList_iff.mpr hy))
  · intro row hrow x hx next hnext y hy
    rcases List.mem_cons.mp ((insert_perm hnext).mem_iff.mp hy) with rfl | hy
    · exact hxs _ hx
    · exact hrow y hy

theorem sort_succeeds {xs : List α} (hbelow : ∀ a ∈ xs, ∀ b ∈ xs, Succeeds (below a b)) :
    Succeeds (sort below xs) := by
  unfold sort
  split
  · next x y rest =>
    have hask : ∀ a b, a ∈ x :: y :: rest → b ∈ x :: y :: rest → Succeeds (below a b) :=
      fun a b ha hb => hbelow a ha b hb
    have hy : y ∈ x :: y :: rest := List.mem_cons_of_mem _ List.mem_cons_self
    have hrest : ∀ z ∈ rest, z ∈ x :: y :: rest :=
      fun z hz => List.mem_cons_of_mem _ (List.mem_cons_of_mem _ hz)
    refine (hask y x hy List.mem_cons_self).bind fun falling => ?_
    refine (runLength_succeeds hask falling hy hrest).bind fun count => ?_
    refine Succeeds.map (foldlM_insert_succeeds hask (fun z hz => List.mem_of_mem_drop hz) ?_) _
    intro z hz
    split at hz
    · exact List.mem_of_mem_take (List.mem_reverse.mp hz)
    · exact List.mem_of_mem_take hz
  · exact ⟨_, rfl⟩

end Sorting

/-! ## Questions about sortable values -/

theorem Value.ask_succeeds {c : Comparison} {a b : Value} (ha : a.isSortable = true)
    {o : Option Ordering} (h : compareScalars? a b = some o) : Succeeds (ask c a b) := by
  refine ⟨o.elim false c.holds, ?_⟩
  cases a <;> first
    | simp [isSortable] at ha; done
    | cases o <;> simp [ask, h]

theorem Value.compareScalars_of_group {a b : Value} (ha : a.isSortable = true)
    (hb : b.isSortable = true) (hgroup : a.group = b.group) :
    a.same b = true ∨ ∃ o, compareScalars? a b = some o := by
  cases a <;> first
    | simp [isSortable] at ha; done
    | cases b <;> first
      | exact .inl rfl
      | exact .inr ⟨_, rfl⟩
      | simp [isSortable] at hb; done
      | simp [group] at hgroup

namespace SortKey

theorem below_succeeds {a b : Value} (ha : a.isSortable = true) (hb : b.isSortable = true) :
    Succeeds ((ofValue a).below (ofValue b)) := by
  unfold below
  rw [compareGroups_ofValue ha hb, value_ofValue, value_ofValue]
  split
  · exact ⟨true, rfl⟩
  · exact ⟨false, rfl⟩
  · next hgroup =>
    split
    · exact ⟨false, rfl⟩
    · next hsame =>
      rcases Value.compareScalars_of_group ha hb (Nat.compare_eq_eq.mp hgroup) with heq | ⟨o, ho⟩
      · exact absurd heq hsame
      · exact Value.ask_succeeds ha ho

end SortKey

/-! ## Ordering records -/

namespace Memory

theorem sortKeyed_succeeds (falling : Bool) {rows : List (SortKey × Value)}
    (h : ∀ a ∈ rows, ∀ b ∈ rows, Succeeds (a.1.below b.1)) : Succeeds (sortKeyed falling rows) := by
  unfold sortKeyed
  split
  · exact ⟨_, rfl⟩
  · dsimp only
    split
    · refine Succeeds.map (Sorting.sort_succeeds fun a ha b hb => ?_) _
      exact h a (List.mem_reverse.mp ha) b (List.mem_reverse.mp hb)
    · exact Sorting.sort_succeeds h

theorem sortBy_succeeds {field : Key} (falling : Bool) {rows : List Value}
    (h : ∀ r ∈ rows, ∃ v, r.get field = .ok v ∧ v.isSortable = true) :
    Succeeds (sortBy field falling rows) := by
  have hkeyed : Succeeds (rows.mapM fun r => do return (SortKey.ofValue (← r.get field), r)) := by
    refine .mapM fun r hr => ?_
    obtain ⟨v, hv, -⟩ := h r hr
    exact Succeeds.map ⟨v, hv⟩ _
  obtain ⟨keyed, hkeyed⟩ := hkeyed
  obtain ⟨hsource, hkeys⟩ := keyed_of_mapM hkeyed
  have hsortable : ∀ e ∈ keyed, ∃ v, e.1 = .ofValue v ∧ v.isSortable = true := by
    intro e he
    obtain ⟨v, hv, hkey⟩ := hkeys e he
    obtain ⟨w, hw, hsortable⟩ := h e.2 (hsource ▸ List.mem_map_of_mem he)
    rw [hv] at hw
    exact ⟨v, hkey, Except.ok.inj hw ▸ hsortable⟩
  have hbelow : ∀ a ∈ keyed, ∀ b ∈ keyed, Succeeds (a.1.below b.1) := by
    intro a ha b hb
    obtain ⟨v, hv, hva⟩ := hsortable a ha
    obtain ⟨w, hw, hwb⟩ := hsortable b hb
    rw [hv, hw]
    exact SortKey.below_succeeds hva hwb
  rw [sortBy, hkeyed]
  exact (sortKeyed_succeeds falling hbelow).map _

theorem sortAll_succeeds {order : Fields} {rows : List Value}
    (h : ∀ r ∈ rows, ∀ e ∈ order, ∃ v, r.get e.1 = .ok v ∧ v.isSortable = true) :
    Succeeds (sortAll order rows) := by
  -- each pass permutes the records, so the next one meets the same values
  refine .foldlM (P := fun current => current.Perm rows) ?_ ?_ (.refl rows)
  · intro current hperm e he
    refine sortBy_succeeds _ fun r hr => ?_
    exact h r (hperm.mem_iff.mp hr) e (List.mem_reverse.mp he)
  · intro current hperm e _ next hnext
    exact (sortBy_perm hnext).trans hperm

end Memory

/-! ## Matching records -/

theorem MemoryStore.matching_succeeds {predicate : Value} {records : List Value}
    (h : ∀ r ∈ records, Succeeds (Predicate.valueHolds r predicate)) :
    Succeeds (matching predicate records) := by
  induction records with
  | nil => exact ⟨[], rfl⟩
  | cons r rs ih =>
    obtain ⟨hr, hrs⟩ := List.forall_mem_cons.mp h
    exact hr.bind fun _ => .ite ((ih hrs).map _) (ih hrs)

end Listing
