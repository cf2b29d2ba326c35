import Listing.Proofs.Page.Walk
import Listing.Proofs.Params.Total
import Listing.Proofs.Sql.Binding
import Listing.Proofs.Sql.Stores

/-!
# Pages of a database

The numbers that a store is asked for follow from the page and its size. The size is held under a ceiling,
but nothing holds the page, so the number of records before it can be more than a database stores. A page
is fetched exactly if that number is stored.
-/

namespace Listing

open Outcome

namespace Sql

/-! ## Binding a window -/

theorem fits_iff {n : Int} (h : 0 ≤ n) : fits n = true ↔ n < 2 ^ 63 := by
  have hlow : minInteger ≤ n := le_trans (by decide) h
  have hlimit : integerLimit = 2 ^ 63 := by decide
  simp [fits, hlow, hlimit]

theorem Store.fetch_skip {s : Store} {predicate order take options : Value}
    (h : Succeeds (s.fetch predicate order (.int 0) take options)) (n : Int) :
    (fits n = true → Succeeds (s.fetch predicate order (.int n) take options)) ∧
      (fits n = false → s.fetch predicate order (.int n) take options = .error .integerPastStorage) := by
  obtain ⟨rows, h⟩ := h
  simp only [fetch, bind_eq_ok] at h
  obtain ⟨clause, hclause, terms, hterms, offset, hoffset, limit, hlimit, names, hnames, selected,
    hselected, included, hincluded, db, hdb, columns, hcolumns, relations, hrelations, _, hbinds, -⟩ := h
  obtain rfl : some 0 = offset := Except.ok.inj hoffset
  -- The place of the first record is bound last, so all that is bound before it can be bound.
  have hstorable : ∀ b ∈ clause.binds ++ terms.flatMap (fun o => Clause.termBinds o.term) ++
      limit.toList.map (fun n => ⟨.plain, .int n⟩), b.Storable := by
    intro b hb
    refine storable_of_checkBinds hbinds b ?_
    rw [List.map_append, ← List.append_assoc]
    exact List.mem_append_left _ hb
  have hcheck : checkBinds (clause.binds ++ terms.flatMap (fun o => Clause.termBinds o.term) ++
      (limit.toList ++ (some n).toList).map fun n => ⟨.plain, .int n⟩) =
        if fits n then .ok () else .error .integerPastStorage := by
    rw [List.map_append, ← List.append_assoc, checkBinds_append hstorable]
    exact checkBinds_int n
  have hbound : bound (.int n) = .ok (some n) := rfl
  have hfetch : s.fetch predicate order (.int n) take options =
      ((if fits n then .ok () else .error .integerPastStorage : Except Failure Unit) >>= fun _ =>
        .ok ((window (some n) limit (sortRows terms ((db s.model.table).filter (clause.selects db)))).map
          fun row => .map (columnsOf (loadedColumns s.model columns) row ++
            relations.map fun r => (.text r.name, relatedValue s.schema db r row)))) := by
    unfold fetch
    rw [hclause, hterms, hbound, hlimit, hnames]
    dsimp only [bind, Except.bind]
    rw [hselected, hincluded, hdb]
    dsimp only
    rw [hcolumns, hrelations]
    dsimp only
    rw [hcheck]
    rfl
  rw [hfetch]
  exact ⟨fun hn => by rw [if_pos hn]; exact ⟨_, rfl⟩, fun hn => by rw [if_neg (by simp [hn])]; rfl⟩

/-- Records that can be fetched from the first on are fetched from a place after it exactly if the place is
stored. -/
theorem Store.fetch_place_iff {s : Store} {f : Fetch} {place : Int} (hskip : f.skip = .whole place)
    (hplace : 0 ≤ place) (h : Succeeds (s.toPageStore.fetch { f with skip := .whole 0 })) :
    (Succeeds (s.toPageStore.fetch f) ↔ place < 2 ^ 63) ∧
      (2 ^ 63 ≤ place → s.toPageStore.fetch f = .error .integerPastStorage) := by
  obtain ⟨predicate, order, skip, take, options⟩ := f
  obtain rfl : skip = .whole place := hskip
  obtain ⟨hstored, hpast⟩ := Store.fetch_skip h place
  have hfails (hfar : 2 ^ 63 ≤ place) :
      s.toPageStore.fetch ⟨predicate, order, .whole place, take, options⟩ =
        .error .integerPastStorage := by
    refine hpast (Bool.eq_false_iff.mpr fun hfits => ?_)
    exact absurd ((fits_iff hplace).mp hfits) (not_lt.mpr hfar)
  refine ⟨⟨fun ⟨rows, hrows⟩ => ?_, fun hnear => hstored ((fits_iff hplace).mpr hnear)⟩, hfails⟩
  by_contra hfar
  rw [hfails (not_lt.mp hfar)] at hrows
  cases hrows

/-! ## Pages -/

theorem place_lt {current take : Int} (hcurrent : current ≤ 2 ^ 32) (htake : 1 ≤ take)
    (hhigh : take ≤ 2 ^ 31) : (current - 1) * take < 2 ^ 63 := by
  calc (current - 1) * take ≤ (2 ^ 32 - 1) * take :=
        Int.mul_le_mul_of_nonneg_right (by omega) (by omega)
    _ ≤ (2 ^ 32 - 1) * 2 ^ 31 := Int.mul_le_mul_of_nonneg_left hhigh (by decide)
    _ < 2 ^ 63 := by decide

/-- **Pages of a database.** Under a ceiling, the page that raw parameters ask for has at least one record
and at most as many as the ceiling, and starts after the records of the pages before it. Rows that can be
fetched from the first on can be fetched for this page exactly if the place where it starts is stored, as
are all up to page 2^32; otherwise the integer is past what a database stores. -/
theorem page_fetched_iff {config : Config} {ceiling : Int}
    (hceiling : config.maxItemsPerPage = some ceiling) (hlow : 1 ≤ ceiling) (hhigh : ceiling ≤ 2 ^ 31)
    {raw base : Value} {policy : FieldPolicy} {plan : PageRequest.Plan}
    (hplan : (QueryParams.parse config raw >>= fun q => q.toRequest.plan config base policy) =
      .ok plan) :
    ∃ q current take, QueryParams.parse config raw = .ok q ∧ current = max 1 q.page ∧
      plan.current = .whole current ∧ plan.fetch.take = .whole take ∧
      plan.fetch.skip = .whole ((current - 1) * take) ∧
      1 ≤ take ∧ take ≤ ceiling ∧ 0 ≤ (current - 1) * take ∧
      (current ≤ 2 ^ 32 → (current - 1) * take < 2 ^ 63) ∧
      ∀ s : Store, Succeeds (s.toPageStore.fetch { plan.fetch with skip := .whole 0 }) →
        (Succeeds (s.toPageStore.fetch plan.fetch) ↔ (current - 1) * take < 2 ^ 63) ∧
        (2 ^ 63 ≤ (current - 1) * take →
          s.toPageStore.fetch plan.fetch = .error .integerPastStorage) := by
  obtain ⟨q, hq, hplan⟩ := bind_eq_ok.mp hplan
  obtain ⟨hcurrent, htake, hskip⟩ := QueryParams.plan_numbers hplan
  have hone : 1 ≤ config.clamp q.itemsPerPage := config.one_le_clamp _
  have hsize : config.clamp q.itemsPerPage ≤ ceiling := Config.clamp_le hceiling hlow _
  have hplace : 0 ≤ (max 1 q.page - 1) * config.clamp q.itemsPerPage :=
    Int.mul_nonneg (by omega) (by omega)
  refine ⟨q, max 1 q.page, config.clamp q.itemsPerPage, hq, rfl, hcurrent, htake, hskip, hone, hsize,
    hplace, fun hpage => place_lt hpage hone (hsize.trans hhigh), fun s hs => ?_⟩
  exact Store.fetch_place_iff hskip hplace hs

/-! ## A page too far -/

open Sample

def fourConfig : Config := { maxItemsPerPage := some 4 }

/-- A client's query for a large page by its number. -/
def pageQuery (page : String) : Value :=
  .items (textPairs [("page", page), ("itemsPerPage", "50")])

def pageParams (page : Int) : QueryParams := ⟨page, 50, none, none, none⟩

/-- The predicate that a user of a name meets. -/
def named (name : String) : Fields :=
  [(.text "name", .map [(.text NativeKey.equals.name, .text name)])]

/-- The base query for users that meet a predicate. -/
def whoMeet (predicate : Fields) : Value := .map [(.text "where", .map predicate)]

/-- What is planned for a page of such users. -/
def pagePlan (predicate : Fields) (page : Int) : PageRequest.Plan :=
  ⟨.whole page, ⟨predicate, none, .whole ((page - 1) * 4), .whole 4, []⟩⟩

theorem page_fetched_third :
    (QueryParams.parse fourConfig (pageQuery "3") >>= fun q =>
        q.toRequest.plan fourConfig (whoMeet []) {}) = .ok (pagePlan [] 3) ∧
      Succeeds ((tables schema database user).toPageStore.fetch (pagePlan [] 1).fetch) ∧
      Succeeds ((tables schema database user).toPageStore.fetch (pagePlan [] 3).fetch) := by
  have hplan : (QueryParams.parse fourConfig (pageQuery "3") >>= fun q =>
      q.toRequest.plan fourConfig (whoMeet []) {}) = .ok (pagePlan [] 3) := rfl
  have hfirst : Succeeds ((tables schema database user).toPageStore.fetch (pagePlan [] 1).fetch) :=
    ⟨_, rfl⟩
  obtain ⟨q, current, take, -, -, hcurrent, htake, -, -, -, -, hnear, hfetch⟩ :=
    page_fetched_iff rfl (by decide : (1 : Int) ≤ 4) (by decide) hplan
  obtain rfl : 3 = current := Quantity.whole.inj hcurrent
  obtain rfl : 4 = take := Quantity.whole.inj htake
  exact ⟨hplan, hfirst, ((hfetch _ hfirst).1).mpr (hnear (by decide))⟩

/-- **The failure.** A client asks for the page that starts at the first place past what a database stores,
and the listing fails, here one of the users of a name that nobody has. -/
theorem far_page_overflows :
    QueryParams.parse fourConfig (pageQuery "2305843009213693953") =
        .ok (pageParams 2305843009213693953) ∧
      (pageParams 2305843009213693953).toRequest.plan fourConfig (whoMeet (named "nobody")) {} =
        .ok (pagePlan (named "nobody") 2305843009213693953) ∧
      (pagePlan (named "nobody") 2305843009213693953).fetch.skip = .whole (2 ^ 63) ∧
      Succeeds ((tables schema database user).toPageStore.fetch
        (pagePlan (named "nobody") 1).fetch) ∧
      paginate (tables schema database user).toPageStore fourConfig (whoMeet (named "nobody")) {}
          (pageParams 2305843009213693953).toRequest = .error .integerPastStorage := by
  have hplan : (pageParams 2305843009213693953).toRequest.plan fourConfig
      (whoMeet (named "nobody")) {} = .ok (pagePlan (named "nobody") 2305843009213693953) := rfl
  have hcount : (tables schema database user).toPageStore.count
      (pagePlan (named "nobody") 2305843009213693953).fetch.predicate = .ok (.int 0) := rfl
  have hfetch : (tables schema database user).toPageStore.fetch
      (pagePlan (named "nobody") 2305843009213693953).fetch = .error .integerPastStorage := rfl
  refine ⟨rfl, hplan, rfl, ⟨_, rfl⟩, ?_⟩
  rw [paginate_of_plan hplan, hcount]
  dsimp only [bind, Except.bind]
  rw [hfetch]

end Sql
end Listing
