import Listing.Policy.Sort
import Listing.Proofs.Memory.Rearrangement
import Listing.Proofs.Number.Dyadic
import Mathlib.Data.List.Lex
import Mathlib.Data.Prod.Lex
import Mathlib.Tactic.IntervalCases

/-!
# The order of ordinary records

Where the fields sorted by hold null, truth values, integers, finite numbers and texts, every value has
a place in one linear order. Sorting by several fields one after the other then arranges the records by
the places of the first field, where these tie by those of the second, and so on; records that tie in
all fields stay in their order.
-/

namespace Listing

open Outcome

/-! ## Places -/

namespace Value

/-- Whether a value is null, a truth value, a number or a text. -/
def isSortable : Value → Bool
  | none | bool _ | int _ | text _ | float _ => true
  | _ => false

/-- Whether a value is null, a truth value, an integer, a finite number or a text. -/
def isOrdinary : Value → Bool
  | none | bool _ | int _ | text _ | float (.finite ..) => true
  | _ => false

theorem isSortable_of_isOrdinary {v : Value} (h : v.isOrdinary = true) : v.isSortable = true := by
  cases v <;> first
    | rfl
    | simp [isOrdinary] at h

/-- The group of a value in a sort: null, numbers, truth values, then texts. -/
def group : Value → ℕ
  | none => 0
  | int _ | float _ => 1
  | bool _ => 2
  | _ => 3

/-- The exact number that a value counts as, 0 if none. -/
def amount : Value → ℚ
  | bool b => b.toInt
  | int n => n
  | float x => (x.toDyadic?.map Dyadic.toRat).getD 0
  | _ => 0

def codes : Value → List ℕ
  | text s => s.toList.map Char.toNat
  | _ => []

/-- The place of an ordinary value in a sort. -/
def place (v : Value) : ℕ ×ₗ ℚ ×ₗ List ℕ := toLex (v.group, toLex (v.amount, v.codes))

theorem place_le_iff {a b : Value} : a.place ≤ b.place ↔
    a.group < b.group ∨ a.group = b.group ∧
      (a.amount < b.amount ∨ a.amount = b.amount ∧ a.codes ≤ b.codes) := by
  rw [place, place, Prod.Lex.toLex_le_toLex, Prod.Lex.toLex_le_toLex]

theorem place_eq_iff {a b : Value} : a.place = b.place ↔
    a.group = b.group ∧ a.amount = b.amount ∧ a.codes = b.codes := by
  simp [place]

theorem place_lt_of_group_lt {a b : Value} (h : a.group < b.group) : a.place < b.place :=
  Prod.Lex.toLex_lt_toLex.mpr (.inl h)

theorem cons_le_cons_iff {m n : ℕ} {ms ns : List ℕ} :
    m :: ms ≤ n :: ns ↔ m < n ∨ m = n ∧ ms ≤ ns := by
  rw [← not_lt, List.cons_lt_cons_iff, ← not_lt (a := ns)]
  constructor
  · intro h
    obtain ⟨hle, htail⟩ := not_or.mp h
    rcases (not_lt.mp hle).lt_or_eq with hlt | heq
    · exact .inl hlt
    · exact .inr ⟨heq, fun hns => htail ⟨heq.symm, hns⟩⟩
  · rintro (hlt | ⟨rfl, htail⟩)
    · omega
    · exact not_or.mpr ⟨lt_irrefl _, fun h => htail h.2⟩

theorem isLE_compareTexts (s t : String) :
    (compareTexts s t).isLE = true ↔ s.toList.map Char.toNat ≤ t.toList.map Char.toNat := by
  unfold compareTexts
  generalize s.toList = cs
  generalize t.toList = ds
  induction cs generalizing ds with
  | nil =>
    refine iff_of_true ?_ (not_lt.mp (List.not_lt_nil _))
    cases ds with
    | nil => rfl
    | cons d ds => rfl
  | cons c cs ih =>
    cases ds with
    | nil => exact iff_of_false (by simp [compareRows]) (not_le.mpr (List.nil_lt_cons _ _))
    | cons d ds =>
      rw [compareRows, List.map_cons, List.map_cons, cons_le_cons_iff, ← ih]
      rcases lt_trichotomy c.toNat d.toNat with hlt | heq | hgt
      · simp [Nat.compare_eq_lt.mpr hlt, hlt]
      · simp [heq]
      · simp [Nat.compare_eq_gt.mpr hgt, hgt.not_gt, hgt.ne']

theorem isOrdinary_cases {v : Value} (h : v.isOrdinary = true) :
    v = none ∨ (∃ s, v = text s) ∨ (v.group = 1 ∨ v.group = 2) ∧ v.text? = Option.none ∧
      v.codes = [] ∧ ∃ d, v.number? = some (.inl d) ∧ d.toRat = v.amount := by
  have hwhole : ∀ n : Int, Dyadic.toRat ⟨n, 0⟩ = n := fun n => by
    rw [Dyadic.toRat, zpow_zero, mul_one]
  cases v with
  | none => exact .inl rfl
  | text s => exact .inr (.inl ⟨s, rfl⟩)
  | bool b => exact .inr (.inr ⟨.inr rfl, rfl, rfl, _, rfl, hwhole _⟩)
  | int n => exact .inr (.inr ⟨.inl rfl, rfl, rfl, _, rfl, hwhole _⟩)
  | float x =>
    cases x with
    | finite negative m e => exact .inr (.inr ⟨.inl rfl, rfl, rfl, _, rfl, rfl⟩)
    | nan => simp [isOrdinary] at h
    | infinite negative => simp [isOrdinary] at h
  | _ => simp [isOrdinary] at h

end Value

namespace SortKey

theorem ofValue_group {v : Value} (h : v.isSortable = true) :
    v.group ≤ 3 ∧ (ofValue v).rank = min v.group 2 ∧
      (ofValue v).kind = ["", "", "bool", "str"].getD v.group "" := by
  cases v <;> first
    | exact ⟨by simp [Value.group], rfl, rfl⟩
    | simp [Value.isSortable] at h

theorem compareGroups_ofValue {a b : Value} (ha : a.isSortable = true) (hb : b.isSortable = true) :
    compareGroups (ofValue a) (ofValue b) = Ord.compare a.group b.group := by
  obtain ⟨hga, hra, hka⟩ := ofValue_group ha
  obtain ⟨hgb, hrb, hkb⟩ := ofValue_group hb
  rw [compareGroups, hra, hrb, hka, hkb]
  generalize a.group = g at *
  generalize b.group = g' at *
  interval_cases g <;> interval_cases g' <;> decide

theorem value_ofValue (v : Value) : (ofValue v).value = v := by
  cases v <;> rfl

theorem isLE_compareScalars {a b : Value} (ha : a.isOrdinary = true) (hb : b.isOrdinary = true)
    (hgroup : a.group = b.group) :
    ((Value.compareScalars? a b).join.getD .eq).isLE = true ↔
      a.amount < b.amount ∨ a.amount = b.amount ∧ a.codes ≤ b.codes := by
  rcases Value.isOrdinary_cases ha with rfl | ⟨s, rfl⟩ | ⟨hga, htexta, hcodesa, x, hx, hxa⟩
  · rcases Value.isOrdinary_cases hb with rfl | ⟨t, rfl⟩ | ⟨hgb, -⟩
    · exact iff_of_true rfl (.inr ⟨rfl, le_refl _⟩)
    · exact absurd hgroup (by simp [Value.group])
    · rw [← hgroup] at hgb
      exact absurd hgb (by decide)
  · rcases Value.isOrdinary_cases hb with rfl | ⟨t, rfl⟩ | ⟨hgb, -⟩
    · exact absurd hgroup (by simp [Value.group])
    · have hscalars : Value.compareScalars? (.text s) (.text t) =
          some (some (Value.compareTexts s t)) := rfl
      rw [hscalars, Option.join_some, Option.getD_some, Value.isLE_compareTexts]
      simp [Value.amount, Value.codes]
    · rw [← hgroup] at hgb
      exact absurd hgb (by simp [Value.group])
  · rcases Value.isOrdinary_cases hb with rfl | ⟨t, rfl⟩ | ⟨-, htextb, hcodesb, y, hy, hyb⟩
    · rw [hgroup] at hga
      exact absurd hga (by decide)
    · rw [hgroup] at hga
      exact absurd hga (by simp [Value.group])
    · have hscalars : Value.compareScalars? a b = some (some (x.compare y)) := by
        unfold Value.compareScalars?
        simp only [htexta, htextb, hx, hy, Value.compareNumbers?]
      rw [hscalars, Option.join_some, Option.getD_some, Dyadic.isLE_compare, hxa, hyb, hcodesa,
        hcodesb, le_iff_lt_or_eq]
      simp

/-- Among ordinary values, one goes before or beside another exactly if its place is not after the
other's. -/
theorem atMost_iff {a b : Value} (ha : a.isOrdinary = true) (hb : b.isOrdinary = true) :
    (ofValue a).atMost (ofValue b) = true ↔ a.place ≤ b.place := by
  rw [Value.place_le_iff, atMost, SortKey.compare,
    compareGroups_ofValue (Value.isSortable_of_isOrdinary ha) (Value.isSortable_of_isOrdinary hb),
    value_ofValue, value_ofValue]
  rcases lt_trichotomy a.group b.group with hlt | heq | hgt
  · simp [Nat.compare_eq_lt.mpr hlt, hlt]
  · rw [heq, Nat.compare_eq_eq.mpr rfl]
    simp only [lt_irrefl, false_or, true_and]
    exact isLE_compareScalars ha hb heq
  · simp [Nat.compare_eq_gt.mpr hgt, hgt.not_gt, hgt.ne']

theorem isPlain_ofValue {v : Value} (h : v.isOrdinary = true) : (ofValue v).isPlain = true := by
  cases v with
  | none | bool b | int n | text s => rfl
  | float x =>
    cases x with
    | finite negative m e => rfl
    | nan | infinite negative => simp [Value.isOrdinary] at h
  | _ => simp [Value.isOrdinary] at h

end SortKey

/-! ## Sorting by one field -/

/-- The value of a field of a record, null where there is none. -/
def Value.field (record : Value) (k : Key) : Value := (record.get k).toOption.getD .none

namespace Memory

/-- Whether a record goes before or beside another by one field. -/
def atMostBy (k : Key) (d : Direction) (a b : Value) : Bool :=
  match d with
  | .asc => decide ((a.field k).place ≤ (b.field k).place)
  | .desc => decide ((b.field k).place ≤ (a.field k).place)

theorem atMostBy_trans (k : Key) (d : Direction) (a b c : Value) (hab : atMostBy k d a b = true)
    (hbc : atMostBy k d b c = true) : atMostBy k d a c = true := by
  cases d with
  | asc => exact decide_eq_true ((of_decide_eq_true hab).trans (of_decide_eq_true hbc))
  | desc => exact decide_eq_true ((of_decide_eq_true hbc).trans (of_decide_eq_true hab))

theorem atMostBy_total (k : Key) (d : Direction) (a b : Value) :
    (atMostBy k d a b || atMostBy k d b a) = true := by
  cases d with
  | asc => simpa [atMostBy] using le_total (a.field k).place (b.field k).place
  | desc => simpa [atMostBy] using le_total (b.field k).place (a.field k).place

/-- The direction that a store reads a value as: falling if it is the word for that. -/
def heading (direction : Value) : Direction := if isFalling direction then .desc else .asc

theorem heading_word (d : Direction) : heading (.text d.word) = d := by
  cases d <;> decide

theorem sortBy_eq_mergeSort {k : Key} {d : Value} {rows sorted : List Value}
    (hrows : ∀ r ∈ rows, (r.field k).isOrdinary = true)
    (h : sortBy k (isFalling d) rows = .ok sorted) :
    sorted = rows.mergeSort (atMostBy k (heading d)) := by
  obtain ⟨keyed, hkeyed, h⟩ := bind_eq_ok.mp h
  obtain ⟨keyed', hsort, hsorted⟩ := bind_eq_ok.mp h
  rw [pure_eq_ok] at hsorted
  subst hsorted
  obtain ⟨hsource, hkeys⟩ := keyed_of_mapM hkeyed
  have hkey : ∀ e ∈ keyed, e.1 = .ofValue (e.2.field k) ∧ (e.2.field k).isOrdinary = true := by
    intro e he
    obtain ⟨v, hv, hkey⟩ := hkeys e he
    have hfield : e.2.field k = v := by rw [Value.field, hv]; rfl
    rw [hfield]
    refine ⟨hkey, ?_⟩
    rw [← hfield]
    exact hrows _ (hsource ▸ List.mem_map_of_mem he)
  have hplain : (keyed.all fun e => e.1.isPlain) = true := by
    rw [List.all_eq_true]
    intro e he
    rw [(hkey e he).1]
    exact SortKey.isPlain_ofValue (hkey e he).2
  have hatMost : ∀ a ∈ keyed, ∀ b ∈ keyed,
      a.1.atMost b.1 = decide ((a.2.field k).place ≤ (b.2.field k).place) := by
    intro a ha b hb
    rw [(hkey a ha).1, (hkey b hb).1, Bool.eq_iff_iff, decide_eq_true_iff]
    exact SortKey.atMost_iff (hkey a ha).2 (hkey b hb).2
  rw [sortKeyed, if_pos hplain] at hsort
  rw [← Except.ok.inj hsort, ← hsource, heading]
  split
  · exact List.map_mergeSort fun a ha b hb => hatMost b hb a ha
  · exact List.map_mergeSort hatMost

theorem filter_mergeSort {α : Type} {le : α → α → Bool}
    (htrans : ∀ a b c, le a b = true → le b c = true → le a c = true)
    (htotal : ∀ a b, (le a b || le b a) = true) {p : α → Bool}
    (hp : ∀ a b, p a = true → p b = true → le a b = true) (l : List α) :
    (l.mergeSort le).filter p = l.filter p := by
  -- the kept elements are sorted as they stand, and so a sublist of the sorted row
  have hpairs : (l.filter p).Pairwise fun a b => le a b = true := by
    rw [List.pairwise_filter]
    exact List.pairwise_of_forall fun a b ha hb => hp a b ha hb
  have hsub := (List.sublist_mergeSort htrans htotal hpairs List.filter_sublist).filter p
  rw [List.filter_filter] at hsub
  simp only [Bool.and_self] at hsub
  exact (hsub.eq_of_length ((List.mergeSort_perm l le).filter p).length_eq.symm).symm

/-! ## Sorting by several fields -/

/-- Whether two records have the same places in all fields of an order. -/
def tie (order : SortOrder) (a b : Value) : Bool :=
  order.all fun e => decide ((a.field e.1).place = (b.field e.1).place)

/-- Whether a record may stand before another: by the first field in which their places differ. -/
def MayPrecede : SortOrder → Value → Value → Prop
  | [], _, _ => True
  | (k, d) :: order, a, b =>
    atMostBy k d a b = true ∧
      ((a.field k).place = (b.field k).place → MayPrecede order a b)

/-- Records put in an order: none lost or repeated, each before those that it may precede, and records
that tie as they were. -/
structure Arranged (order : SortOrder) (rows sorted : List Value) : Prop where
  perm : sorted.Perm rows
  ordered : sorted.Pairwise (MayPrecede order)
  stable : ∀ a, sorted.filter (tie order a) = rows.filter (tie order a)

theorem arranged_nil (rows : List Value) : Arranged [] rows rows where
  perm := .refl _
  ordered := List.pairwise_of_forall fun _ _ => trivial
  stable _ := rfl

/-- Sorting by a further field keeps the order by the others among records that tie in it. -/
theorem Arranged.sort {order : SortOrder} {rows sorted : List Value} (h : Arranged order rows sorted)
    (k : Key) (d : Direction) :
    Arranged ((k, d) :: order) rows (sorted.mergeSort (atMostBy k d)) := by
  have hkept : ∀ a, (sorted.mergeSort (atMostBy k d)).filter (tie [(k, d)] a) =
      sorted.filter (tie [(k, d)] a) := by
    intro a
    refine filter_mergeSort (atMostBy_trans k d) (atMostBy_total k d) (fun b c hb hc => ?_) sorted
    have hplace : (b.field k).place = (c.field k).place := by
      simp only [tie, List.all_cons, List.all_nil, Bool.and_true, decide_eq_true_eq] at hb hc
      rw [← hb, hc]
    cases d with
    | asc => exact decide_eq_true hplace.le
    | desc => exact decide_eq_true hplace.ge
  refine ⟨(List.mergeSort_perm _ _).trans h.perm, ?_, fun a => ?_⟩
  · -- two records that tie in this field stand in the order that the inner sort gave them
    have hfirst := List.pairwise_mergeSort (atMostBy_trans k d) (atMostBy_total k d) sorted
    rw [List.pairwise_iff_forall_sublist]
    intro a b hab
    refine ⟨List.pairwise_iff_forall_sublist.mp hfirst hab, fun hplace => ?_⟩
    have hsub := hab.filter (tie [(k, d)] a)
    have hboth : [a, b].filter (tie [(k, d)] a) = [a, b] := by simp [tie, hplace]
    rw [hboth, hkept] at hsub
    exact List.pairwise_iff_forall_sublist.mp (h.ordered.filter _) hsub
  · have hsplit : ∀ l : List Value, l.filter (tie ((k, d) :: order) a) =
        (l.filter (tie [(k, d)] a)).filter (tie order a) := by
      intro l
      rw [List.filter_filter]
      refine List.filter_congr fun b _ => ?_
      simp [tie, Bool.and_comm]
    have hswap : ∀ l : List Value, (l.filter (tie [(k, d)] a)).filter (tie order a) =
        (l.filter (tie order a)).filter (tie [(k, d)] a) := by
      intro l
      rw [List.filter_filter, List.filter_filter]
      exact List.filter_congr fun b _ => Bool.and_comm _ _
    rw [hsplit, hkept, hswap, h.stable, ← hswap, ← hsplit]

/-- The order that a store reads a mapping as. -/
def sought (order : Fields) : SortOrder := order.map fun (k, direction) => (k, heading direction)

theorem sought_words (order : SortOrder) :
    sought (order.map fun (k, d) => (k, .text d.word)) = order := by
  simp [sought, heading_word, Function.comp_def]

theorem sortAll_sought {order : Fields} {rows sorted : List Value}
    (hrows : ∀ r ∈ rows, ∀ e ∈ order, (r.field e.1).isOrdinary = true)
    (h : sortAll order rows = .ok sorted) : Arranged (sought order) rows sorted := by
  induction order generalizing sorted with
  | nil =>
    rw [← Except.ok.inj h]
    exact arranged_nil rows
  | cons e order ih =>
    obtain ⟨k, d⟩ := e
    -- the fields are sorted by from the last to the first, so the first has the last word
    unfold sortAll at h
    rw [List.reverse_cons, List.foldlM_append, bind_eq_ok] at h
    obtain ⟨inner, hinner, hlast⟩ := h
    have harranged : Arranged (sought order) rows inner :=
      ih (fun r hr e he => hrows r hr e (List.mem_cons_of_mem _ he)) hinner
    rw [List.foldlM_cons, bind_eq_ok] at hlast
    obtain ⟨last, hlast, hsorted⟩ := hlast
    rw [List.foldlM_nil, pure_eq_ok] at hsorted
    subst hsorted
    have hfield : ∀ r ∈ inner, (r.field k).isOrdinary = true :=
      fun r hr => hrows r (harranged.perm.mem_iff.mp hr) (k, d) List.mem_cons_self
    rw [sortBy_eq_mergeSort hfield hlast]
    exact harranged.sort k (heading d)

theorem sortAll_arranged {order : SortOrder} {rows sorted : List Value}
    (hrows : ∀ r ∈ rows, ∀ e ∈ order, (r.field e.1).isOrdinary = true)
    (h : sortAll (order.map fun (k, d) => (k, .text d.word)) rows = .ok sorted) :
    Arranged order rows sorted := by
  rw [← sought_words order]
  apply sortAll_sought _ h
  intro r hr e he
  obtain ⟨entry, hentry, rfl⟩ := List.mem_map.mp he
  exact hrows r hr entry hentry

end Memory
end Listing
