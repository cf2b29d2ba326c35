import Listing.Memory.Store
import Listing.Proofs.Outcome

/-!
# Windows one after the other

Windows of one size, side by side, make up the row that they are cut from. Selecting fields works
record by record, so it makes no difference whether a row is cut before or after.
-/

namespace Listing

open Outcome

/-! ## Windows -/

namespace Window

variable {α : Type} (size : Nat) (rows : List α)

/-- The window of a size that some windows of that size precede. -/
def nth (k : Nat) : List α := (rows.drop (k * size)).take size

theorem between_natCast (start : Nat) :
    between (start : Nat) ((start : Nat) + (size : Nat)) rows = (rows.drop start).take size := by
  have hplace : ∀ position : Nat, place rows.length position = min position rows.length := by
    intro position
    rw [place, if_neg (by omega), Int.toNat_natCast]
  have hstop : (start : Int) + (size : Nat) = (start + size : Nat) := by
    push_cast
    rfl
  rw [between, hstop, hplace, hplace, ← List.take_eq_take_min]
  by_cases hinside : start ≤ rows.length
  · rw [Nat.min_eq_left hinside, List.drop_take, Nat.add_sub_cancel_left]
  · rw [Nat.min_eq_right (by omega), List.drop_of_length_le (List.length_take_le' _ _),
      List.drop_of_length_le (by omega), List.take_nil]

theorem slice_natCast (start : Nat) :
    slice (.int start) (.int size) rows = .ok ((rows.drop start).take size) :=
  congrArg Except.ok (between_natCast size rows start)

/-- The window of a page is cut at what the pages before it hold. -/
theorem slice_nth {k : Nat} (hk : 1 ≤ k) :
    slice (.int ((k - 1) * size)) (.int size) rows = .ok (nth size rows (k - 1)) := by
  have hskip : ((k : Int) - 1) * size = ((k - 1) * size : Nat) := by
    rw [Int.natCast_mul]
    congr 1
    omega
  rw [hskip]
  exact slice_natCast size rows ((k - 1) * size)

theorem slice_of_length_le {rows : List α} {limit : Nat} (h : rows.length ≤ limit) :
    slice (.int 0) (.int limit) rows = .ok rows := by
  have hslice := slice_nth limit rows (Nat.le_refl 1)
  have hstart : (((1 : Nat) : Int) - 1) * limit = 0 := by simp
  have hwhole : nth limit rows (1 - 1) = rows := by
    rw [nth, Nat.sub_self, Nat.zero_mul, List.drop_zero, List.take_of_length_le h]
  rwa [hstart, hwhole] at hslice

theorem flatMap_nth (pages : Nat) :
    (List.range pages).flatMap (nth size rows) = rows.take (pages * size) := by
  induction pages with
  | zero => simp
  | succ pages ih =>
    rw [List.range_succ, List.flatMap_append, ih, List.flatMap_singleton, nth, Nat.succ_mul,
      List.take_add]

theorem slice_sublist {skip take : Value} {rows window : List α}
    (h : slice skip take rows = .ok window) : window.Sublist rows := by
  unfold slice at h
  split at h
  · rw [← Except.ok.inj h]
    exact (List.drop_sublist _ _).trans (List.take_sublist _ _)
  · simp at h

theorem length_nth (k : Nat) : (nth size rows k).length = min size (rows.length - k * size) := by
  rw [nth, List.length_take, List.length_drop]

end Window

/-! ## Selected fields -/

namespace MemoryStore

theorem projected_map (options : Fields) (rows : List Value) :
    projected (.map options) rows =
      match options.find "select" with
      | some select => if select.isTrue then rows.mapM (project select) else .ok rows
      | none => .ok rows := rfl

theorem projected_eq_mapM (options : Fields) :
    ∃ f : Value → Except Failure Value, ∀ rows, projected (.map options) rows = rows.mapM f := by
  have hwhole : ∀ rows : List Value, .ok rows = rows.mapM (m := Except Failure) pure := by
    intro rows
    rw [List.mapM_pure, List.map_id']
    rfl
  simp only [projected_map]
  split
  · next select _ =>
    by_cases hselect : select.isTrue = true
    · exact ⟨project select, fun rows => if_pos hselect⟩
    · exact ⟨pure, fun rows => (if_neg hselect).trans (hwhole rows)⟩
  · exact ⟨pure, hwhole⟩

theorem projected_nil (options : Fields) : projected (.map options) [] = .ok [] := by
  obtain ⟨f, hf⟩ := projected_eq_mapM options
  rw [hf]
  rfl

theorem length_projected {options : Fields} {rows records : List Value}
    (h : projected (.map options) rows = .ok records) : records.length = rows.length := by
  obtain ⟨f, hf⟩ := projected_eq_mapM options
  rw [hf] at h
  exact (mapM_eq_ok.mp h).length_eq.symm

theorem projected_flatMap {options : Fields} {pages : Nat} {windows records : Nat → List Value}
    (h : ∀ k < pages, projected (.map options) (windows k) = .ok (records k)) :
    projected (.map options) ((List.range pages).flatMap windows) =
      .ok ((List.range pages).flatMap records) := by
  obtain ⟨f, hf⟩ := projected_eq_mapM options
  simp only [hf, mapM_eq_ok] at h ⊢
  induction pages with
  | zero => exact .nil
  | succ pages ih =>
    rw [List.range_succ, List.flatMap_append, List.flatMap_append, List.flatMap_singleton,
      List.flatMap_singleton]
    exact List.rel_append (ih fun k hk => h k (by omega)) (h pages (by omega))

end MemoryStore
end Listing
