import Listing.Proofs.Memory.Total
import Listing.Proofs.Memory.Window

/-!
# Fetching a window of the arrangement

Records of ordinary values have one arrangement by an order: which of two may stand first is settled by
the first field in which their places differ, and where there is none, by where they are stored. The store
in memory cuts its windows from that arrangement of the matching records.
-/

namespace Listing

open Outcome

namespace Memory

variable {order : SortOrder} {a b : Value}

/-! ## Which of two records may stand first -/

theorem atMostBy_antisymm {k : Key} {d : Direction} (hab : atMostBy k d a b = true)
    (hba : atMostBy k d b a = true) : (a.field k).place = (b.field k).place := by
  cases d with
  | asc => exact le_antisymm (of_decide_eq_true hab) (of_decide_eq_true hba)
  | desc => exact le_antisymm (of_decide_eq_true hba) (of_decide_eq_true hab)

theorem atMostBy_of_place_eq {k : Key} (d : Direction) (h : (a.field k).place = (b.field k).place) :
    atMostBy k d a b = true := by
  cases d with
  | asc => exact decide_eq_true h.le
  | desc => exact decide_eq_true h.ge

theorem tie_self (order : SortOrder) (a : Value) : tie order a a = true := by
  simp [tie]

theorem tie_cons {k : Key} {d : Direction} : tie ((k, d) :: order) a b = true ↔
    (a.field k).place = (b.field k).place ∧ tie order a b = true := by
  simp [tie]

theorem tie_of_mayPrecede (hab : MayPrecede order a b) (hba : MayPrecede order b a) :
    tie order a b = true := by
  induction order with
  | nil => rfl
  | cons e order ih =>
    have hplace := atMostBy_antisymm hab.1 hba.1
    exact tie_cons.mpr ⟨hplace, ih (hab.2 hplace) (hba.2 hplace.symm)⟩

theorem mayPrecede_of_tie (h : tie order a b = true) : MayPrecede order a b := by
  induction order with
  | nil => trivial
  | cons e order ih =>
    obtain ⟨hplace, hrest⟩ := tie_cons.mp h
    exact ⟨atMostBy_of_place_eq e.2 hplace, fun _ => ih hrest⟩

theorem MayPrecede.trans {c : Value} (hab : MayPrecede order a b) (hbc : MayPrecede order b c) :
    MayPrecede order a c := by
  induction order with
  | nil => trivial
  | cons e order ih =>
    obtain ⟨k, d⟩ := e
    refine ⟨atMostBy_trans k d a b c hab.1 hbc.1, fun hac => ?_⟩
    -- where the outer two have one place, what stands between them has it too
    have hba : atMostBy k d b a = true :=
      atMostBy_trans k d b c a hbc.1 (atMostBy_of_place_eq d hac.symm)
    have hplace := atMostBy_antisymm hab.1 hba
    exact ih (hab.2 hplace) (hbc.2 (hplace.symm.trans hac))

theorem mayPrecede_total (order : SortOrder) (a b : Value) :
    MayPrecede order a b ∨ MayPrecede order b a := by
  induction order with
  | nil => exact .inl trivial
  | cons e order ih =>
    obtain ⟨k, d⟩ := e
    by_cases hplace : (a.field k).place = (b.field k).place
    · rcases ih with hab | hba
      · exact .inl ⟨atMostBy_of_place_eq d hplace, fun _ => hab⟩
      · exact .inr ⟨atMostBy_of_place_eq d hplace.symm, fun _ => hba⟩
    · rcases Bool.or_eq_true_iff.mp (atMostBy_total k d a b) with hab | hba
      · exact .inl ⟨hab, fun h => absurd h hplace⟩
      · exact .inr ⟨hba, fun h => absurd h.symm hplace⟩

instance decidableMayPrecede : ∀ (order : SortOrder) (a b : Value), Decidable (MayPrecede order a b)
  | [], _, _ => .isTrue trivial
  | (k, d) :: order, a, b =>
    have := decidableMayPrecede order a b
    inferInstanceAs (Decidable (atMostBy k d a b = true ∧
      ((a.field k).place = (b.field k).place → MayPrecede order a b)))

/-- One stable sort by all fields at once arranges records as well. -/
theorem mergeSort_arranged (order : SortOrder) (rows : List Value) :
    Arranged order rows (rows.mergeSort fun a b => decide (MayPrecede order a b)) := by
  have htrans : ∀ a b c, decide (MayPrecede order a b) = true →
      decide (MayPrecede order b c) = true → decide (MayPrecede order a c) = true := by
    intro a b c hab hbc
    exact decide_eq_true ((of_decide_eq_true hab).trans (of_decide_eq_true hbc))
  have htotal : ∀ a b, (decide (MayPrecede order a b) || decide (MayPrecede order b a)) = true := by
    intro a b
    simpa using mayPrecede_total order a b
  refine ⟨List.mergeSort_perm _ _, ?_, fun a => ?_⟩
  · exact (List.pairwise_mergeSort htrans htotal rows).imp of_decide_eq_true
  · apply filter_mergeSort htrans htotal
    intro b c hb hc
    apply decide_eq_true
    apply mayPrecede_of_tie
    simp only [tie, List.all_eq_true, decide_eq_true_eq] at hb hc ⊢
    exact fun e he => (hb e he).symm.trans (hc e he)

/-! ## The one arrangement -/

/-- Two rows of the same records, both in the order and with ties in the same order, are equal. -/
theorem eq_of_perm_of_ties {rows rows' : List Value} (hperm : rows.Perm rows')
    (hrows : rows.Pairwise (MayPrecede order)) (hrows' : rows'.Pairwise (MayPrecede order))
    (hties : ∀ a, rows.filter (tie order a) = rows'.filter (tie order a)) : rows = rows' := by
  induction rows generalizing rows' with
  | nil => exact hperm.symm.eq_nil.symm
  | cons a rows ih =>
    cases rows' with
    | nil => exact absurd hperm.eq_nil (List.cons_ne_nil a rows)
    | cons b rows' =>
      rw [List.pairwise_cons] at hrows hrows'
      -- either head stands before the other in one of the rows, unless they are the same record
      have htie : tie order a b = true := by
        rcases List.mem_cons.mp (hperm.mem_iff.mpr List.mem_cons_self) with rfl | hb
        · exact tie_self order b
        · rcases List.mem_cons.mp (hperm.mem_iff.mp List.mem_cons_self) with rfl | ha
          · exact tie_self order a
          · exact tie_of_mayPrecede (hrows.1 b hb) (hrows'.1 a ha)
      have hheads := hties a
      rw [List.filter_cons_of_pos (tie_self order a), List.filter_cons_of_pos htie] at hheads
      obtain ⟨rfl, -⟩ := List.cons.inj hheads
      congr 1
      apply ih ((List.perm_cons a).mp hperm) hrows.2 hrows'.2
      intro c
      have hc := hties c
      rw [List.filter_cons, List.filter_cons] at hc
      split at hc
      · exact List.tail_eq_of_cons_eq hc
      · exact hc

theorem Arranged.unique {rows sorted sorted' : List Value} (h : Arranged order rows sorted)
    (h' : Arranged order rows sorted') : sorted = sorted' := by
  apply eq_of_perm_of_ties (h.perm.trans h'.perm.symm) h.ordered h'.ordered
  intro a
  rw [h.stable, h'.stable]

end Memory

/-! ## Fetching -/

namespace MemoryStore

/-- The records that satisfy a predicate, as they are stored. -/
def selection (s : MemoryStore) (predicate : Value) : List Value :=
  s.records.filter fun r => Predicate.isYes (Predicate.valueHolds r predicate)

theorem matching_eq_selection {s : MemoryStore} {predicate : Value}
    (h : ∀ r ∈ s.records, Succeeds (Predicate.valueHolds r predicate)) :
    matching predicate s.records = .ok (s.selection predicate) := by
  obtain ⟨matched, hmatched⟩ := matching_succeeds h
  rw [hmatched, matching_eq_filter hmatched, selection]

theorem selection_empty (s : MemoryStore) : s.selection (.map []) = s.records :=
  List.filter_true s.records

theorem exists_ordered {order : Fields} {rows : List Value}
    (h : ∀ r ∈ rows, ∀ e ∈ order, ∃ v, r.get e.1 = .ok v ∧ v.isOrdinary = true) :
    ∃ sorted, ordered (.map order) rows = .ok sorted ∧
      Memory.Arranged (Memory.sought order) rows sorted := by
  cases order with
  | nil => exact ⟨rows, rfl, Memory.arranged_nil rows⟩
  | cons e order =>
    have hsortable : ∀ r ∈ rows, ∀ e' ∈ e :: order, ∃ v, r.get e'.1 = .ok v ∧
        v.isSortable = true := by
      intro r hr e' he'
      obtain ⟨v, hv, hordinary⟩ := h r hr e' he'
      exact ⟨v, hv, Value.isSortable_of_isOrdinary hordinary⟩
    have hfields : ∀ r ∈ rows, ∀ e' ∈ e :: order, (r.field e'.1).isOrdinary = true := by
      intro r hr e' he'
      obtain ⟨v, hv, hordinary⟩ := h r hr e' he'
      rw [Value.field, hv]
      exact hordinary
    obtain ⟨sorted, hsorted⟩ := Memory.sortAll_succeeds hsortable
    exact ⟨sorted, hsorted, Memory.sortAll_sought hfields hsorted⟩

theorem projected_of_not_select {options : Fields} (rows : List Value)
    (h : ∀ select, options.find "select" = some select → select.isTrue = false) :
    projected (.map options) rows = .ok rows := by
  rw [projected_map]
  split
  · next select hselect => simp [h select hselect]
  · rfl

theorem exists_fetch_arranged {s : MemoryStore} {predicate : Value} {order options : Fields}
    (hmatching : ∀ r ∈ s.records, Succeeds (Predicate.valueHolds r predicate))
    (hvalues : ∀ r ∈ s.selection predicate, ∀ e ∈ order,
      ∃ v, r.get e.1 = .ok v ∧ v.isOrdinary = true)
    (hselect : ∀ select, options.find "select" = some select → select.isTrue = false)
    (skip take : Nat) :
    ∃ sorted, Memory.Arranged (Memory.sought order) (s.selection predicate) sorted ∧
      s.fetch predicate (.map order) (.int skip) (.int take) (.map options) =
        .ok ((sorted.drop skip).take take) := by
  obtain ⟨sorted, hsorted, harranged⟩ := exists_ordered hvalues
  refine ⟨sorted, harranged, ?_⟩
  calc s.fetch predicate (.map order) (.int skip) (.int take) (.map options)
    _ = (do
        let rows ← ordered (.map order) (s.selection predicate)
        let rows ← Window.slice (.int skip) (.int take) rows
        projected (.map options) rows) := by rw [fetch, matching_eq_selection hmatching]; rfl
    _ = (do
        let rows ← Window.slice (.int skip) (.int take) sorted
        projected (.map options) rows) := by rw [hsorted]; rfl
    _ = projected (.map options) ((sorted.drop skip).take take) := by
      rw [Window.slice_natCast]
      rfl
    _ = .ok ((sorted.drop skip).take take) := projected_of_not_select _ hselect

/-- Without a selection of fields, the store fetches a window of the one arrangement of the matching
records, whatever the fields and directions of the order, as long as the values sorted by are ordinary. -/
theorem fetch_window_of_arranged {s : MemoryStore} {predicate : Value} {order options : Fields}
    (hmatching : ∀ r ∈ s.records, Succeeds (Predicate.valueHolds r predicate))
    (hvalues : ∀ r ∈ s.selection predicate, ∀ e ∈ order,
      ∃ v, r.get e.1 = .ok v ∧ v.isOrdinary = true)
    (hselect : ∀ select, options.find "select" = some select → select.isTrue = false)
    (skip take : Nat) :
    ∃ sorted,
      (∀ rows, Memory.Arranged (Memory.sought order) (s.selection predicate) rows ↔
        rows = sorted) ∧
      s.fetch predicate (.map order) (.int skip) (.int take) (.map options) =
        .ok ((sorted.drop skip).take take) := by
  obtain ⟨sorted, harranged, hfetch⟩ :=
    exists_fetch_arranged hmatching hvalues hselect skip take
  refine ⟨sorted, fun rows => ⟨fun h => h.unique harranged, ?_⟩, hfetch⟩
  rintro rfl
  exact harranged

/-- Scores of every ordinary kind, two of them equal as numbers. -/
def scores : List Value := [.int 3, .none, .bool true, .float (.ofInt 3), .text "x"]

def scoredStore (scores : List Value) : MemoryStore :=
  ⟨scores.map fun score => .map [(.text "score", score)]⟩

theorem fetch_scored_window :
    (∀ r ∈ (scoredStore scores).records, Succeeds (Predicate.valueHolds r (.map []))) ∧
      ∃ sorted,
        (∀ rows, Memory.Arranged [(.text "score", .desc)] (scoredStore scores).records rows ↔
          rows = sorted) ∧
        (scoredStore scores).fetch (.map []) (.map [(.text "score", .text "desc")]) (.int 1) (.int 3)
          (.map []) = .ok ((sorted.drop 1).take 3) := by
  have hmatching : ∀ r ∈ (scoredStore scores).records,
      Succeeds (Predicate.valueHolds r (.map [])) := fun r _ => ⟨true, rfl⟩
  have hscores : ∀ score ∈ scores, score.isOrdinary = true := by decide
  have hvalues : ∀ r ∈ (scoredStore scores).selection (.map []),
      ∀ e ∈ [((.text "score" : Key), Value.text "desc")],
        ∃ v, r.get e.1 = .ok v ∧ v.isOrdinary = true := by
    intro r hr e he
    obtain rfl := List.mem_singleton.mp he
    obtain ⟨score, hscore, rfl⟩ := List.mem_map.mp (List.mem_of_mem_filter hr)
    exact ⟨score, rfl, hscores score hscore⟩
  have hselect : ∀ select, Entries.find ([] : Fields) "select" = some select →
      select.isTrue = false := fun _ h => nomatch h
  exact ⟨hmatching, fetch_window_of_arranged hmatching hvalues hselect 1 3⟩

end MemoryStore
end Listing
