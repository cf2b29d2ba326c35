import Listing.Memory.Store
import Listing.Proofs.Outcome
import Listing.Proofs.Predicate.Conjunction

/-!
# Matching and ordering keep records

Matching keeps of the stored records those of which the predicate holds, in their order. Ordering
rearranges them, whatever the values sorted by: no record is lost and none appears twice.
-/

namespace Listing

open Outcome

/-! ## Sorting -/

namespace Sorting

variable {α : Type} {below : Below α}

theorem insert_perm {sorted result : Array α} {x : α} (h : insert below sorted x = .ok result) :
    result.toList.Perm (x :: sorted.toList) := by
  obtain ⟨place, -, hresult⟩ := bind_eq_ok.mp h
  rw [pure_eq_ok] at hresult
  subst hresult
  have htail : (sorted.toList.drop place).take (sorted.size - place) = sorted.toList.drop place :=
    List.take_of_length_le (by simp)
  have hlist : (sorted.extract 0 place ++ #[x] ++ sorted.extract place sorted.size).toList =
      sorted.toList.take place ++ x :: sorted.toList.drop place := by
    simp [Array.toList_extract, List.extract_eq_take_drop, htail]
  rw [hlist]
  refine List.perm_middle.trans ?_
  rw [List.take_append_drop]

theorem foldlM_insert_perm {xs : List α} {start result : Array α}
    (h : xs.foldlM (insert below) start = .ok result) :
    result.toList.Perm (xs ++ start.toList) := by
  induction xs generalizing start with
  | nil =>
    rw [List.foldlM_nil, pure_eq_ok] at h
    subst h
    exact List.Perm.refl _
  | cons x xs ih =>
    rw [List.foldlM_cons, bind_eq_ok] at h
    obtain ⟨next, hnext, hrest⟩ := h
    calc result.toList.Perm (xs ++ next.toList) := ih hrest
      List.Perm _ (xs ++ x :: start.toList) := (insert_perm hnext).append_left xs
      List.Perm _ (x :: xs ++ start.toList) := List.perm_middle

theorem sort_perm {xs ys : List α} (h : sort below xs = .ok ys) : ys.Perm xs := by
  unfold sort at h
  split at h
  · next x y rest =>
    obtain ⟨falling, -, h⟩ := bind_eq_ok.mp h
    obtain ⟨run, -, h⟩ := bind_eq_ok.mp h
    obtain ⟨sorted, hsorted, hys⟩ := bind_eq_ok.mp h
    rw [pure_eq_ok] at hys
    subst hys
    have hstart : (if falling then ((x :: y :: rest).take (run + 2)).reverse
        else (x :: y :: rest).take (run + 2)).Perm ((x :: y :: rest).take (run + 2)) := by
      split
      · exact List.reverse_perm _
      · exact List.Perm.refl _
    calc sorted.toList.Perm ((x :: y :: rest).drop (run + 2) ++ _) := foldlM_insert_perm hsorted
      List.Perm _ ((x :: y :: rest).drop (run + 2) ++ (x :: y :: rest).take (run + 2)) :=
        hstart.append_left _
      List.Perm _ ((x :: y :: rest).take (run + 2) ++ (x :: y :: rest).drop (run + 2)) :=
        List.perm_append_comm
      List.Perm _ (x :: y :: rest) := by rw [List.take_append_drop]
  · rw [Except.ok.inj h]

end Sorting

/-! ## Ordering records -/

namespace Memory

theorem sortKeyed_perm {falling : Bool} {rows sorted : List (SortKey × Value)}
    (h : sortKeyed falling rows = .ok sorted) : sorted.Perm rows := by
  unfold sortKeyed at h
  split at h
  · rw [← Except.ok.inj h]
    split
    · exact List.mergeSort_perm _ _
    · exact List.mergeSort_perm _ _
  · dsimp only at h
    split at h
    · obtain ⟨reversed, hsort, hsorted⟩ := bind_eq_ok.mp h
      rw [pure_eq_ok] at hsorted
      subst hsorted
      calc reversed.reverse.Perm reversed := List.reverse_perm _
        List.Perm _ rows.reverse := Sorting.sort_perm hsort
        List.Perm _ rows := List.reverse_perm _
    · exact Sorting.sort_perm h

theorem keyed_of_mapM {field : Key} {rows : List Value} {keyed : List (SortKey × Value)}
    (h : (rows.mapM fun r => do return (SortKey.ofValue (← r.get field), r)) = .ok keyed) :
    keyed.map (·.2) = rows ∧ ∀ e ∈ keyed, ∃ v, e.2.get field = .ok v ∧ e.1 = SortKey.ofValue v := by
  have hpairs := mapM_eq_ok.mp h
  clear h
  induction hpairs with
  | nil => exact ⟨rfl, fun e he => nomatch he⟩
  | cons hrow _ ih =>
    obtain ⟨v, hv, hkey⟩ := bind_eq_ok.mp hrow
    rw [pure_eq_ok] at hkey
    subst hkey
    refine ⟨by rw [List.map_cons, ih.1], fun e he => ?_⟩
    rcases List.mem_cons.mp he with rfl | he
    · exact ⟨v, hv, rfl⟩
    · exact ih.2 e he

theorem sortBy_perm {field : Key} {falling : Bool} {rows sorted : List Value}
    (h : sortBy field falling rows = .ok sorted) : sorted.Perm rows := by
  obtain ⟨keyed, hkeyed, h⟩ := bind_eq_ok.mp h
  obtain ⟨keyed', hsort, hsorted⟩ := bind_eq_ok.mp h
  rw [pure_eq_ok] at hsorted
  subst hsorted
  rw [← (keyed_of_mapM hkeyed).1]
  exact (sortKeyed_perm hsort).map _

theorem foldlM_sortBy_perm {order : Fields} {rows sorted : List Value}
    (h : order.foldlM (fun rows (field, direction) => sortBy field (isFalling direction) rows) rows =
      .ok sorted) : sorted.Perm rows := by
  induction order generalizing rows with
  | nil =>
    rw [List.foldlM_nil, pure_eq_ok] at h
    rw [h]
  | cons e order ih =>
    rw [List.foldlM_cons, bind_eq_ok] at h
    obtain ⟨next, hnext, hrest⟩ := h
    exact (ih hrest).trans (sortBy_perm hnext)

theorem sortAll_perm {order : Fields} {rows sorted : List Value}
    (h : sortAll order rows = .ok sorted) : sorted.Perm rows :=
  foldlM_sortBy_perm h

end Memory

namespace MemoryStore

theorem ordered_perm {order : Value} {rows sorted : List Value}
    (h : ordered order rows = .ok sorted) : sorted.Perm rows := by
  unfold ordered at h
  split at h
  · obtain ⟨es, -, hsort⟩ := bind_eq_ok.mp h
    exact Memory.sortAll_perm hsort
  · rw [Except.ok.inj h]

theorem matching_eq_filter {predicate : Value} {records matched : List Value}
    (h : matching predicate records = .ok matched) :
    matched = records.filter fun r => Predicate.isYes (Predicate.valueHolds r predicate) := by
  induction records generalizing matched with
  | nil =>
    rw [matching] at h
    exact (Except.ok.inj h).symm
  | cons r rs ih =>
    rw [matching] at h
    obtain ⟨b, hb, h⟩ := bind_eq_ok.mp h
    rw [List.filter_cons, hb]
    cases b with
    | false => exact ih h
    | true =>
      obtain ⟨rest, hrest, hmatched⟩ := bind_eq_ok.mp h
      rw [pure_eq_ok] at hmatched
      rw [← hmatched, ih hrest]
      rfl

end MemoryStore
end Listing
