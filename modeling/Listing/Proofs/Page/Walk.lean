import Listing.Proofs.Memory.Order
import Listing.Proofs.Number.Ceiling
import Listing.Proofs.Page.Scope

/-!
# Walking the pages

The pages of a request differ in nothing but their number and the window that they show. Walking them
from the first to the last shows every matching record once, in order, and nothing comes after.
-/

namespace Listing

open Outcome

/-! ## Numbers of a page -/

theorem Quantity.atLeastOne_int (n : Int) : atLeastOne (.int n) = .ok (.whole (max 1 n)) := by
  have hask : Value.ask .gt (.int n) (.int 1) = .ok (decide (1 < n)) := by
    have hcompare : Dyadic.compare ⟨n, 0⟩ ⟨1, 0⟩ = compare n 1 := by
      simp [Dyadic.compare, Dyadic.mantissaAt]
    have hscalars : Value.ask .gt (.int n) (.int 1) =
        .ok (Comparison.gt.holds (Dyadic.compare ⟨n, 0⟩ ⟨1, 0⟩)) := rfl
    rw [hscalars, hcompare]
    rcases lt_trichotomy n 1 with hlt | rfl | hgt
    · rw [Int.compare_eq_lt.mpr hlt, decide_eq_false (by omega)]
      rfl
    · rfl
    · rw [Int.compare_eq_gt.mpr hgt, decide_eq_true hgt]
      rfl
  have hstep : atLeastOne (.int n) = if decide (1 < n) = true then .ok (.whole n)
      else .ok (.whole 1) := by
    unfold atLeastOne
    rw [hask]
    rfl
  rw [hstep]
  by_cases h : 1 < n
  · rw [if_pos (decide_eq_true h), max_eq_right h.le]
  · rw [if_neg (by simpa using h), max_eq_left (by omega)]

/-- The size of a page that a number asks for: at least one, at most the ceiling. -/
def Config.clamp (config : Config) (n : Int) : Int :=
  config.maxItemsPerPage.elim (max 1 n) fun ceiling => min (max 1 n) (max 1 ceiling)

theorem Config.one_le_clamp (config : Config) (n : Int) : 1 ≤ config.clamp n := by
  unfold clamp
  cases config.maxItemsPerPage with
  | none => exact le_max_left 1 n
  | some ceiling => exact le_min (le_max_left 1 n) (le_max_left 1 ceiling)

theorem Config.clamp_le {config : Config} {ceiling : Int}
    (hceiling : config.maxItemsPerPage = some ceiling) (hlow : 1 ≤ ceiling) (n : Int) :
    config.clamp n ≤ ceiling := by
  rw [clamp, hceiling, Option.elim_some, max_eq_right hlow]
  exact min_le_right _ _

theorem Config.clamp_clamp (config : Config) (n : Int) : config.clamp (config.clamp n) = config.clamp n := by
  unfold clamp
  cases config.maxItemsPerPage with
  | none => simp
  | some ceiling => simp only [Option.elim_some]; omega

/-- The request of another page. -/
def PageRequest.atPage (r : PageRequest) (k : Nat) : PageRequest := { r with page := .int k }

theorem PageRequest.numbers_int {config : Config} {r : PageRequest} {n m : Int}
    (hpage : r.page = .int n) (hsize : r.itemsPerPage = .int m) :
    r.numbers config = .ok (.whole (max 1 n), .whole (config.clamp m),
      .whole ((max 1 n - 1) * config.clamp m)) := by
  have hcapped : (config.maxItemsPerPage.elim (Quantity.whole (max 1 m)) fun ceiling =>
      (Quantity.whole (max 1 m)).capped (max 1 ceiling)) = .whole (config.clamp m) := by
    unfold Config.clamp
    cases config.maxItemsPerPage with
    | none => rfl
    | some ceiling =>
      rw [Option.elim_some, Option.elim_some, Quantity.capped]
      split
      · next h => rw [min_eq_right h.le]
      · next h => rw [min_eq_left (not_lt.mp h)]
  unfold numbers
  rw [hpage, hsize, Quantity.atLeastOne_int, Quantity.atLeastOne_int]
  refine bind_eq_ok.mpr ⟨_, rfl, bind_eq_ok.mpr ⟨_, rfl, ?_⟩⟩
  dsimp only
  rw [hcapped]
  rfl

theorem PageRequest.numbers_atPage {config : Config} {r : PageRequest} {m : Int}
    (hsize : r.itemsPerPage = .int m) {k : Nat} (hk : 1 ≤ k) :
    (r.atPage k).numbers config =
      .ok (.whole k, .whole (config.clamp m), .whole ((k - 1) * config.clamp m)) := by
  have hone : max 1 (k : Int) = k := max_eq_right (by omega)
  have hnumbers := @numbers_int config (r.atPage k) k m rfl hsize
  rwa [hone] at hnumbers

theorem QueryParams.plan_numbers {q : QueryParams} {config : Config} {base : Value}
    {policy : FieldPolicy} {plan : PageRequest.Plan}
    (h : q.toRequest.plan config base policy = .ok plan) :
    plan.current = .whole (max 1 q.page) ∧
      plan.fetch.take = .whole (config.clamp q.itemsPerPage) ∧
      plan.fetch.skip = .whole ((max 1 q.page - 1) * config.clamp q.itemsPerPage) := by
  rw [PageRequest.plan_base] at h
  obtain ⟨es, -, hplan⟩ := bind_eq_ok.mp h
  obtain ⟨current, take, skip, predicate, hnumbers, -, rfl⟩ := PageRequest.plan_eq_ok.mp hplan
  rw [@PageRequest.numbers_int config q.toRequest q.page q.itemsPerPage rfl rfl] at hnumbers
  obtain ⟨hcurrent, htake, hskip⟩ := by simpa using Except.ok.inj hnumbers
  exact ⟨hcurrent.symm, htake.symm, hskip.symm⟩

/-! ## Serving another page -/

variable {s : MemoryStore} {config : Config} {base : Fields} {policy : FieldPolicy}
  {r : PageRequest} {m : Int} {first page : Page}

theorem Serving.numbers_atPage {k : Nat} (hsize : r.itemsPerPage = .int m) (hk : 1 ≤ k)
    (v : Serving s config base policy (r.atPage k) page) :
    v.current = .whole k ∧ v.take = .whole (config.clamp m) ∧
      v.skip = .whole ((k - 1) * config.clamp m) := by
  have h := v.numbers_eq
  rw [PageRequest.numbers_atPage hsize hk] at h
  obtain ⟨hcurrent, htake, hskip⟩ := by simpa using Except.ok.inj h
  exact ⟨hcurrent.symm, htake.symm, hskip.symm⟩

/-- Once a first page is served, another is exactly if the fields of its window can be selected, and
apart from its number it has the same information. -/
theorem Serving.atPage_eq_ok (v : Serving s config base policy (r.atPage 1) first)
    (hsize : r.itemsPerPage = .int m) {size k : Nat} (hclamp : config.clamp m = size) (hk : 1 ≤ k) :
    paginate s.toPageStore config (.map base) policy (r.atPage k) = .ok page ↔
      MemoryStore.projected (.map (PageRequest.options base))
        (Window.nth size v.sorted (k - 1)) = .ok page.records ∧
      page.info = { first.info with currentPage := k } := by
  have htake : v.take = .whole size := by rw [(v.numbers_atPage hsize (le_refl 1)).2.1, hclamp]
  have hnumbers : (r.atPage k).numbers config =
      .ok (.whole k, .whole size, .whole ((k - 1) * size)) := by
    rw [PageRequest.numbers_atPage hsize hk, hclamp]
  have hpages := v.pages_eq
  rw [htake] at hpages
  -- Of the first page's information nothing but the number depends on the page.
  have hinfo : PageInfo.ofFields
      (r.infoFields policy (.whole k) (.whole size) v.pages v.matched.length) =
        .ok { first.info with currentPage := k } := by
    have h := v.info_eq
    rw [htake] at h
    obtain ⟨-, hrest⟩ := PageInfo.ofFields_eq_ok.mp h
    exact PageInfo.ofFields_eq_ok.mpr ⟨rfl, hrest⟩
  rw [paginate_eq_ok]
  constructor
  · rintro ⟨w⟩
    obtain ⟨hcurrent', htake', hskip'⟩ := w.numbers_atPage hsize hk
    rw [hclamp] at htake' hskip'
    have hpredicate : w.predicate = v.predicate :=
      Except.ok.inj (w.predicate_eq.symm.trans v.predicate_eq)
    have hmatched : w.matched = v.matched :=
      Except.ok.inj (w.matched_eq.symm.trans (hpredicate ▸ v.matched_eq))
    have hsorted : w.sorted = v.sorted :=
      Except.ok.inj (w.sorted_eq.symm.trans (hmatched ▸ v.sorted_eq))
    have hrows : w.rows = Window.nth size v.sorted (k - 1) := by
      have h := w.rows_eq
      rw [hskip', htake', hsorted] at h
      exact Except.ok.inj (h.symm.trans (Window.slice_nth size v.sorted hk))
    have hpages' : w.pages = v.pages := by
      have h := w.pages_eq
      rw [htake', hmatched] at h
      exact Except.ok.inj (h.symm.trans hpages)
    refine ⟨hrows ▸ w.records_eq, ?_⟩
    have h := w.info_eq
    rw [hcurrent', htake', hpages', hmatched] at h
    exact Except.ok.inj (h.symm.trans hinfo)
  · rintro ⟨hrecords, hpage⟩
    exact ⟨{
      current := .whole k
      take := .whole size
      skip := .whole ((k - 1) * size)
      predicate := v.predicate
      matched := v.matched
      sorted := v.sorted
      rows := Window.nth size v.sorted (k - 1)
      pages := v.pages
      numbers_eq := hnumbers
      predicate_eq := v.predicate_eq
      matched_eq := v.matched_eq
      sorted_eq := v.sorted_eq
      rows_eq := Window.slice_nth size v.sorted hk
      records_eq := hrecords
      pages_eq := hpages
      info_eq := hpage ▸ hinfo }⟩

/-! ## Walking -/

theorem Serving.arranged (v : Serving s config base policy r page)
    (hordinary : ∀ record ∈ s.records, ∀ e ∈ policy.sanitizeSort r.sort.asFields,
      (record.field e.1).isOrdinary = true) :
    Memory.Arranged (policy.sanitizeSort r.sort.asFields) v.matched v.sorted := by
  have hmatched : ∀ record ∈ v.matched, ∀ e ∈ policy.sanitizeSort r.sort.asFields,
      (record.field e.1).isOrdinary = true := by
    intro record hrecord
    rw [v.matched_eq_filter] at hrecord
    exact hordinary record (List.mem_of_mem_filter hrecord)
  have hsorted := v.sorted_eq
  unfold PageRequest.givenOrder PageRequest.allowedSort at hsorted
  generalize policy.sanitizeSort r.sort.asFields = order at *
  cases order with
  | nil =>
    rw [← Except.ok.inj hsorted]
    exact Memory.arranged_nil v.matched
  | cons e order => exact Memory.sortAll_arranged hmatched hsorted

theorem exists_pages (total : Nat) {size : Nat} (hsize : 0 < size) :
    ∃ pages : Nat, ⌈(total : ℚ) / size⌉ = pages ∧ total ≤ pages * size ∧
      pages * size < total + size := by
  have hpos : (0 : ℚ) < size := by exact_mod_cast hsize
  obtain ⟨pages, hpages⟩ : ∃ pages : Nat, ⌈(total : ℚ) / size⌉ = pages :=
    Int.eq_ofNat_of_zero_le (Int.ceil_nonneg (by positivity))
  obtain ⟨hlower, hupper⟩ := Int.ceil_eq_iff.mp hpages
  rw [lt_div_iff₀ hpos, sub_mul, one_mul, sub_lt_iff_lt_add] at hlower
  rw [div_le_iff₀ hpos] at hupper
  exact ⟨pages, hpages, by exact_mod_cast hupper, by exact_mod_cast hlower⟩

/-- What a page shows of a row of records that is cut into pages of a size. -/
structure Page.Shows (page : Page) (ordered : List Value) (size pages k : Nat) : Prop where
  totalItems_eq : page.info.totalItems = ordered.length
  totalPages_eq : page.info.totalPages = pages
  full : k < pages → page.records.length = size
  last : k = pages → 1 ≤ page.records.length ∧ page.records.length ≤ size
  beyond : pages < k → page.records = []

theorem Page.shows_of_length {ordered : List Value} {size pages k : Nat} (hk : 1 ≤ k)
    (hitems : page.info.totalItems = ordered.length) (hpages : page.info.totalPages = pages)
    (hupper : ordered.length ≤ pages * size) (hlower : pages * size < ordered.length + size)
    (hlength : page.records.length = min size (ordered.length - (k - 1) * size)) :
    page.Shows ordered size pages k := by
  have hbefore : (k - 1) * size + size = k * size := by
    rw [← Nat.succ_mul, Nat.succ_eq_add_one, Nat.sub_add_cancel hk]
  refine ⟨hitems, hpages, fun h => ?_, ?_, fun h => ?_⟩
  · have hnext : (k + 1) * size ≤ pages * size := Nat.mul_le_mul_right size h
    rw [Nat.succ_mul] at hnext
    omega
  · rintro rfl
    omega
  · have hpast : (pages + 1) * size ≤ k * size := Nat.mul_le_mul_right size h
    rw [Nat.succ_mul] at hpast
    exact List.eq_nil_of_length_eq_zero (by omega)

theorem Serving.length_sorted (v : Serving s config base policy r page) :
    v.sorted.length = v.matched.length :=
  (MemoryStore.ordered_perm v.sorted_eq).length_eq

theorem Serving.totalPages_bounds (v : Serving s config base policy (r.atPage 1) first)
    (hcount : s.records.length < 2 ^ 53) (hsize : r.itemsPerPage = .int m) {size : Nat}
    (hclamp : config.clamp m = size) (hupper : size ≤ 2 ^ 53) :
    ∃ pages : Nat, first.info.totalPages = pages ∧ v.sorted.length ≤ pages * size ∧
      pages * size < v.sorted.length + size := by
  have hpos : 0 < size := by
    have := config.one_le_clamp m
    omega
  have htotal : v.matched.length < 2 ^ 53 := by
    rw [v.matched_eq_filter]
    exact (List.length_filter_le _ _).trans_lt hcount
  have hpages := v.pages_eq
  rw [(v.numbers_atPage hsize (le_refl 1)).2.1, hclamp,
    Quantity.pages_eq htotal hpos hupper] at hpages
  obtain ⟨pages, hceil, hle, hlt⟩ := exists_pages v.matched.length hpos
  obtain ⟨-, -, htotalPages, -⟩ := PageInfo.ofFields_eq_ok.mp v.info_eq
  rw [v.length_sorted]
  refine ⟨pages, ?_, hle, hlt⟩
  rw [← hceil, Except.ok.inj hpages]
  exact (Except.ok.inj htotalPages).symm

section

variable (v : Serving s config base policy (r.atPage 1) first) (hsize : r.itemsPerPage = .int m)
  {size pages : Nat} (hclamp : config.clamp m = size) (hupper : v.sorted.length ≤ pages * size)

include hsize hclamp hupper

theorem Serving.shows_atPage (hpages : first.info.totalPages = pages)
    (hlower : pages * size < v.sorted.length + size) {k : Nat} (hk : 1 ≤ k)
    (hpage : paginate s.toPageStore config (.map base) policy (r.atPage k) = .ok page) :
    page.Shows v.sorted size pages k := by
  obtain ⟨hrecords, hinfo⟩ := (v.atPage_eq_ok hsize hclamp hk).mp hpage
  have hitems : page.info.totalItems = v.sorted.length := by
    rw [hinfo, v.length_sorted]
    exact v.totalItems_eq
  have htotal : page.info.totalPages = pages := by
    rw [hinfo]
    exact hpages
  refine Page.shows_of_length hk hitems htotal hupper hlower ?_
  rw [MemoryStore.length_projected hrecords, Window.length_nth]

theorem Serving.exists_beyond {k : Nat} (hk : pages < k) :
    ∃ page, paginate s.toPageStore config (.map base) policy (r.atPage k) = .ok page := by
  have hnone : Window.nth size v.sorted (k - 1) = [] := by
    have hpast : pages * size ≤ (k - 1) * size := Nat.mul_le_mul_right size (by omega)
    rw [← List.length_eq_zero_iff, Window.length_nth]
    omega
  refine ⟨⟨[], { first.info with currentPage := k }⟩,
    (v.atPage_eq_ok hsize hclamp (by omega)).mpr ⟨?_, rfl⟩⟩
  rw [hnone]
  exact MemoryStore.projected_nil _

/-- The pages up to the last make up the whole row. -/
theorem Serving.projected_walk {walk : Nat → Page} (hwalk : ∀ k, 1 ≤ k → k ≤ pages →
      paginate s.toPageStore config (.map base) policy (r.atPage k) = .ok (walk k)) :
    MemoryStore.projected (.map (PageRequest.options base)) v.sorted =
      .ok ((List.range pages).flatMap fun k => (walk (k + 1)).records) := by
  have hrow : (List.range pages).flatMap (Window.nth size v.sorted) = v.sorted := by
    rw [Window.flatMap_nth, List.take_of_length_le hupper]
  rw [← hrow]
  refine MemoryStore.projected_flatMap fun k hk => ?_
  have hpage := hwalk (k + 1) (by omega) hk
  exact ((v.atPage_eq_ok hsize hclamp (by omega)).mp hpage).1

end

/-- **Walking the pages.** Of a store of fewer than `2 ^ 53` records, sorted by fields that hold
ordinary values, let a first page be served in pages of a size up to `2 ^ 53`. Then the matching
records, arranged by the allowed sort, are cut into pages: each page that is served tells their number
and the number of pages, is full before the last page, holds something on it and nothing after it;
those after it are served; and the pages up to the last make up the whole row with its selected
fields. -/
theorem pages_visit_once (s : MemoryStore) (config : Config) (base : Value) (policy : FieldPolicy)
    (r : PageRequest) (m : Int) (first : Page) (hcount : s.records.length < 2 ^ 53)
    (hsize : r.itemsPerPage = .int m) (hclamp : config.clamp m ≤ 2 ^ 53)
    (hordinary : ∀ record ∈ s.records, ∀ e ∈ policy.sanitizeSort r.sort.asFields,
      (record.field e.1).isOrdinary = true)
    (hfirst : paginate s.toPageStore config base policy (r.atPage 1) = .ok first) :
    ∃ (es : Fields) (ordered : List Value) (size pages : Nat),
      PageRequest.baseFields base = .ok es ∧ config.clamp m = size ∧
      Memory.Arranged (policy.sanitizeSort r.sort.asFields)
        (s.records.filter fun record => (r.demands es policy).all (Predicate.admits · record))
        ordered ∧
      (pages = 0 ↔ ordered = []) ∧
      (∀ k page, 1 ≤ k → paginate s.toPageStore config base policy (r.atPage k) = .ok page →
        page.Shows ordered size pages k) ∧
      (∀ k, pages < k → ∃ page,
        paginate s.toPageStore config base policy (r.atPage k) = .ok page) ∧
      ∀ walk : Nat → Page, (∀ k, 1 ≤ k → k ≤ pages →
          paginate s.toPageStore config base policy (r.atPage k) = .ok (walk k)) →
        MemoryStore.projected (.map (PageRequest.options es)) ordered =
          .ok ((List.range pages).flatMap fun k => (walk (k + 1)).records) := by
  obtain ⟨es, hes⟩ := exists_baseFields hfirst
  simp only [paginate_of_base hes] at hfirst ⊢
  obtain ⟨v⟩ := paginate_eq_ok.mp hfirst
  have hone := config.one_le_clamp m
  obtain ⟨size, hsize'⟩ : ∃ size : Nat, config.clamp m = size :=
    Int.eq_ofNat_of_zero_le (by omega)
  obtain ⟨pages, hpages, hupper, hlower⟩ := v.totalPages_bounds hcount hsize hsize' (by omega)
  have harranged := v.arranged hordinary
  rw [v.matched_eq_filter] at harranged
  have hnone : pages = 0 ↔ v.sorted = [] := by
    rw [← List.length_eq_zero_iff]
    constructor
    · rintro rfl
      omega
    · intro hnone
      by_contra hne
      have := Nat.le_mul_of_pos_left size (Nat.pos_of_ne_zero hne)
      omega
  refine ⟨es, v.sorted, size, pages, hes, hsize', harranged, hnone, ?_, ?_, ?_⟩
  · intro k page hk hpage
    exact v.shows_atPage hsize hsize' hupper hpages hlower hk hpage
  · intro k hk
    exact v.exists_beyond hsize hsize' hupper hk
  · intro walk hwalk
    exact v.projected_walk hsize hsize' hupper hwalk

/-! ## Five records -/

/-- Records whose ages are of every kind that can be sorted by. -/
def agedStore : MemoryStore :=
  ⟨[.int 3, .none, .bool true, .float (.ofInt 1), .text "old"].map fun age =>
    .map [(.text "age", age)]⟩

def agePolicy : FieldPolicy where
  sortable := [(.text "age", .allowed true)]

/-- A request for pages of two records, the greatest age first. -/
def agedRequest : PageRequest where
  itemsPerPage := .int 2
  sort := .map [(.text "age", .text Direction.desc.word)]

theorem aged_pages_visit_once : ∃ (ordered : List Value) (pages : Nat),
    Memory.Arranged [(.text "age", .desc)] agedStore.records ordered ∧
      ∀ k page, 1 ≤ k →
        paginate agedStore.toPageStore {} .none agePolicy (agedRequest.atPage k) = .ok page →
        page.Shows ordered 2 pages k := by
  have hcount : agedStore.records.length < 2 ^ 53 := by decide
  have hclamp : Config.clamp {} 2 ≤ 2 ^ 53 := by decide
  have hordinary : ∀ record ∈ agedStore.records,
      ∀ e ∈ agePolicy.sanitizeSort agedRequest.sort.asFields,
        (record.field e.1).isOrdinary = true := by decide
  obtain ⟨es, ordered, size, pages, hes, hsize, harranged, -, hshows, -⟩ :=
    pages_visit_once agedStore {} .none agePolicy agedRequest 2 _ hcount rfl hclamp hordinary rfl
  obtain rfl := Except.ok.inj hes
  obtain rfl : size = 2 := by
    have htwo : Config.clamp {} 2 = (2 : Nat) := rfl
    rw [htwo] at hsize
    omega
  exact ⟨ordered, pages, harranged, hshows⟩

end Listing
