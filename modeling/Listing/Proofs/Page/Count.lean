import Listing.Proofs.Number.Ceiling
import Listing.Proofs.Page.Total

/-!
# The number of pages

The number of pages that is told with a page is the ceiling of a rounded quotient. It is the least number
of pages that hold the total exactly if rounding keeps the ceiling, which for totals up to `2 ^ 53` fails
for one kind of page alone: one so large that the quotient is rounded to zero.
-/

namespace Listing

open Outcome

/-! ## The least number of pages -/

/-- The least number of pages of a size that hold a total. -/
def FewestPages (pages : Int) (total size : Nat) : Prop :=
  if total = 0 then pages = 0 else (pages - 1) * size < total ∧ total ≤ pages * size

theorem fewestPages_iff {pages : Int} {total size : Nat} (hsize : 0 < size) :
    FewestPages pages total size ↔ pages = ⌈(total : ℚ) / size⌉ := by
  have hpos : (0 : ℚ) < size := by exact_mod_cast hsize
  unfold FewestPages
  split
  · next hzero => rw [hzero, Nat.cast_zero, zero_div, Int.ceil_zero]
  · rw [eq_comm (a := pages), Int.ceil_eq_iff, lt_div_iff₀ hpos, div_le_iff₀ hpos]
    exact_mod_cast Iff.rfl

/-! ## What is told about a page -/

variable {config : Config} {base : Value} {policy : FieldPolicy} {q : QueryParams}
  {plan : PageRequest.Plan} {store : PageStore (Except Failure)} {total : Nat} {records : List Value}
  {page : Page}

theorem QueryParams.page_eq (h : q.toRequest.plan config base policy = .ok plan) :
    plan.page policy q.toRequest (.int total) records = (do
      let pages ← Quantity.pages (.int total) plan.fetch.take
      let info ← PageInfo.ofFields
        (q.toRequest.infoFields policy plan.current plan.fetch.take pages total)
      return ⟨records, info⟩) := by
  rw [PageRequest.plan_base] at h
  obtain ⟨es, -, hplan⟩ := bind_eq_ok.mp h
  obtain ⟨current, take, skip, predicate, -, -, rfl⟩ := PageRequest.plan_eq_ok.mp hplan
  rfl

theorem QueryParams.paginate_succeeds_iff (hplan : q.toRequest.plan config base policy = .ok plan)
    (hcount : store.count plan.fetch.predicate = .ok (.int total))
    (hfetch : store.fetch plan.fetch = .ok records) :
    Succeeds (paginate store config base policy q.toRequest) ↔
      Succeeds (Quantity.pages (.int total) plan.fetch.take) := by
  obtain ⟨hcurrent, htake, -⟩ := QueryParams.plan_numbers hplan
  have hpaginate : paginate store config base policy q.toRequest =
      plan.page policy q.toRequest (.int total) records := by
    rw [paginate_of_plan hplan, hcount]
    dsimp only [bind, Except.bind]
    rw [hfetch]
  rw [hpaginate, QueryParams.page_eq hplan]
  constructor
  · rintro ⟨page, hpage⟩
    obtain ⟨pages, hpages, -⟩ := bind_eq_ok.mp hpage
    exact ⟨pages, hpages⟩
  · rintro ⟨pages, hpages⟩
    obtain ⟨info, hinfo⟩ := infoFields_succeeds policy q (max 1 q.page) (config.clamp q.itemsPerPage)
      pages total
    rw [← hcurrent, ← htake] at hinfo
    exact ⟨⟨records, info⟩, bind_eq_ok.mpr ⟨pages, hpages, bind_eq_ok.mpr ⟨info, hinfo, rfl⟩⟩⟩

theorem QueryParams.told_of_paginate (hplan : q.toRequest.plan config base policy = .ok plan)
    (hcount : store.count plan.fetch.predicate = .ok (.int total))
    (h : paginate store config base policy q.toRequest = .ok page) :
    page.info.totalItems = total ∧ page.info.itemsPerPage = config.clamp q.itemsPerPage ∧
      Quantity.pages (.int total) plan.fetch.take = .ok page.info.totalPages := by
  obtain ⟨-, htake, -⟩ := QueryParams.plan_numbers hplan
  rw [paginate_of_plan hplan, hcount] at h
  obtain ⟨_, hcounted, records, -, hpage⟩ := by simpa only [bind_eq_ok] using h
  obtain rfl := Except.ok.inj hcounted
  rw [QueryParams.page_eq hplan] at hpage
  obtain ⟨pages, hpages, info, hinfo, hreturn⟩ := by simpa only [bind_eq_ok] using hpage
  obtain rfl := pure_eq_ok.mp hreturn
  obtain ⟨-, hsize, hnumber, hitems, -⟩ := PageInfo.ofFields_eq_ok.mp hinfo
  rw [htake] at hsize
  rw [hpages]
  exact ⟨(Except.ok.inj hitems).symm, (Except.ok.inj hsize).symm,
    congrArg Except.ok (Except.ok.inj hnumber)⟩

/-- **Counting pages.** The page of any parameters, over any store that counts and fetches what is planned,
has at least one record in it. It is served exactly if the total is not past the greatest floating-point
number times the size. The number of pages told with it is the least that hold the total exactly if
rounding the quotient keeps its ceiling. For totals up to `2 ^ 53` that is so exactly if the size is less
than `2 ^ 1075` times the total; from there on no pages are told, whatever the total. -/
theorem page_count_exact_iff (hplan : q.toRequest.plan config base policy = .ok plan)
    (hcount : store.count plan.fetch.predicate = .ok (.int total))
    (hfetch : store.fetch plan.fetch = .ok records) :
    ∃ size : Nat, 1 ≤ size ∧ size = config.clamp q.itemsPerPage ∧ plan.fetch.take = .whole size ∧
      (Succeeds (paginate store config base policy q.toRequest) ↔
        total < (2 ^ 54 - 1) * 2 ^ 970 * size) ∧
      ∀ page, paginate store config base policy q.toRequest = .ok page →
        page.info.totalItems = total ∧ page.info.itemsPerPage = size ∧
        (FewestPages page.info.totalPages total size ↔ Binary64.KeepsCeiling total size) ∧
        (total = 0 → page.info.totalPages = 0) ∧
        (0 < total → total ≤ 2 ^ 53 →
          (FewestPages page.info.totalPages total size ↔ size < total * 2 ^ 1075)) ∧
        (0 < total → total * 2 ^ 1075 ≤ size → page.info.totalPages = 0) := by
  obtain ⟨-, htake, -⟩ := QueryParams.plan_numbers hplan
  have hone : 1 ≤ config.clamp q.itemsPerPage := config.one_le_clamp _
  obtain ⟨size, hsize⟩ : ∃ size : Nat, (size : Int) = config.clamp q.itemsPerPage :=
    ⟨(config.clamp q.itemsPerPage).toNat, by omega⟩
  rw [← hsize] at htake hone
  have hpos : 0 < size := by omega
  refine ⟨size, hpos, hsize, htake, ?_, fun page hpage => ?_⟩
  · rw [QueryParams.paginate_succeeds_iff hplan hcount hfetch, htake]
    exact Quantity.pages_succeeds_iff hpos
  · obtain ⟨hitems, hshown, hpages⟩ := QueryParams.told_of_paginate hplan hcount hpage
    rw [htake] at hpages
    have hexact : FewestPages page.info.totalPages total size ↔ Binary64.KeepsCeiling total size := by
      rw [fewestPages_iff hpos, Quantity.pages_eq_ceil_iff hpos hpages]
    refine ⟨hitems, hshown.trans hsize.symm, hexact, ?_, fun hsome hfew => ?_, fun hsome hvast => ?_⟩
    · rintro rfl
      have hzero := hexact.mpr (by rw [Binary64.KeepsCeiling, if_pos rfl]; trivial)
      rwa [FewestPages, if_pos rfl] at hzero
    · exact hexact.trans (Binary64.keepsCeiling_iff hsome hfew hpos)
    · exact Except.ok.inj (hpages.symm.trans (Quantity.pages_eq_zero hsome hvast))

/-! ## A page for one record -/

def firstPage (size : Nat) : QueryParams := ⟨1, size, none, none, none⟩

def firstPlan (size : Nat) : PageRequest.Plan := ⟨.whole 1, ⟨[], none, .whole 0, .whole size, []⟩⟩

def loneStore : MemoryStore := ⟨[.map [(.text "name", .text "x")]]⟩

theorem plan_firstPage {size : Nat} (hsize : 1 ≤ size) :
    (firstPage size).toRequest.plan {} (.map []) {} = .ok (firstPlan size) := by
  have hnumbers : (firstPage size).toRequest.numbers {} = .ok (.whole 1, .whole size, .whole 0) := by
    rw [@PageRequest.numbers_int {} (firstPage size).toRequest 1 size rfl rfl, Config.clamp,
      max_self, sub_self, Int.zero_mul, max_eq_right (by omega : (1 : Int) ≤ size)]
    rfl
  exact PageRequest.plan_eq_ok.mpr ⟨_, _, _, [], hnumbers, rfl, rfl⟩

theorem fetch_firstPlan {size : Nat} (hsize : 1 ≤ size) :
    loneStore.toPageStore.fetch (firstPlan size).fetch = .ok loneStore.records := by
  have hslice : Window.slice (.int 0) (.int size) loneStore.records = .ok loneStore.records :=
    Window.slice_of_length_le hsize
  exact bind_eq_ok.mpr ⟨loneStore.records, rfl, bind_eq_ok.mpr ⟨loneStore.records, rfl,
    bind_eq_ok.mpr ⟨loneStore.records, hslice, rfl⟩⟩⟩

theorem page_count_exact_ten :
    (firstPage 10).toRequest.plan {} (.map []) {} = .ok (firstPlan 10) ∧
      loneStore.toPageStore.count (firstPlan 10).fetch.predicate = .ok (.int (1 : Nat)) ∧
      loneStore.toPageStore.fetch (firstPlan 10).fetch = .ok loneStore.records ∧
      ∃ page, paginate loneStore.toPageStore {} (.map []) {} (firstPage 10).toRequest = .ok page ∧
        FewestPages page.info.totalPages 1 10 := by
  have hplan := plan_firstPage (by decide : 1 ≤ 10)
  have hcount : loneStore.toPageStore.count (firstPlan 10).fetch.predicate = .ok (.int (1 : Nat)) := rfl
  have hfetch := fetch_firstPlan (by decide : 1 ≤ 10)
  obtain ⟨size, -, -, htake, hserved, htold⟩ := page_count_exact_iff hplan hcount hfetch
  obtain rfl : 10 = size := by exact_mod_cast Quantity.whole.inj htake
  obtain ⟨page, hpage⟩ := hserved.mpr (by omega)
  exact ⟨hplan, hcount, hfetch, page, hpage, ((htold page hpage).2.2.2.2.1 (by omega) (by omega)).mpr
    (by omega)⟩

/-- **The failure.** One record is on no page of `10 ^ 400`. -/
theorem vast_page_uncounted :
    (firstPage (10 ^ 400)).toRequest.plan {} (.map []) {} = .ok (firstPlan (10 ^ 400)) ∧
      loneStore.toPageStore.count (firstPlan (10 ^ 400)).fetch.predicate = .ok (.int 1) ∧
      ∃ page, paginate loneStore.toPageStore {} (.map []) {} (firstPage (10 ^ 400)).toRequest =
          .ok page ∧
        page.info.totalItems = 1 ∧ page.info.totalPages = 0 ∧
        ¬FewestPages page.info.totalPages 1 (10 ^ 400) := by
  generalize hsize : 10 ^ 400 = size
  have hvast : 1 * 2 ^ 1075 ≤ size := by
    calc 1 * 2 ^ 1075 = (2 ^ 43) ^ 25 := by rw [Nat.one_mul, ← pow_mul]
      _ ≤ (10 ^ 16) ^ 25 := Nat.pow_le_pow_left (by norm_num) 25
      _ = size := by rw [← pow_mul, ← hsize]
  have hone : 1 ≤ size := by
    have hpower : 0 < 2 ^ 1075 := by positivity
    omega
  have hplan := plan_firstPage hone
  have hcount : loneStore.toPageStore.count (firstPlan size).fetch.predicate = .ok (.int (1 : Nat)) := rfl
  have hnone : Quantity.pages (.int (1 : Nat)) (firstPlan size).fetch.take = .ok 0 :=
    Quantity.pages_eq_zero Nat.one_pos hvast
  obtain ⟨page, hpage⟩ :=
    (QueryParams.paginate_succeeds_iff hplan hcount (fetch_firstPlan hone)).mpr ⟨0, hnone⟩
  obtain ⟨hitems, -, hpages⟩ := QueryParams.told_of_paginate hplan hcount hpage
  obtain hzero : 0 = page.info.totalPages := Except.ok.inj (hnone.symm.trans hpages)
  refine ⟨hplan, hcount, page, hpage, hitems, hzero.symm, ?_⟩
  rw [← hzero, FewestPages, if_neg Nat.one_ne_zero]
  omega

end Listing
