import Listing.Page.Paginate
import Listing.Proofs.Entries
import Listing.Proofs.Memory.Rearrangement

/-!
# Serving a page

A page is served from memory exactly if each stage gives a result: the numbers of the request, the
predicate, the matching records, their order, the window, the selected fields, and the information on
the page.
-/

namespace Listing

open Outcome

/-! ## Page information -/

namespace PageInfo

theorem placed_eq_ok {α : Type} {place : List Key} {x : Except Defect α} {a : α} :
    placed place x = .ok a ↔ x = .ok a := by
  cases x <;> simp [placed]

theorem ofFields_eq_ok {current size pages items filters sorts search : Value} {info : PageInfo} :
    ofFields [(.text "current_page", current), (.text "items_per_page", size),
        (.text "total_pages", pages), (.text "total_items", items), (.text "filters", filters),
        (.text "sorts", sorts), (.text "search", search)] = .ok info ↔
      integer current = .ok info.currentPage ∧ integer size = .ok info.itemsPerPage ∧
        integer pages = .ok info.totalPages ∧ integer items = .ok info.totalItems ∧
        entries (.text "filters") .ok filters = .ok info.filters ∧
        entries (.text "sorts") string sorts = .ok info.sorts ∧
        string search = .ok info.search := by
  simp only [ofFields, Field.required, Field.optional, Field.find?, Entries.find_cons,
    Entries.find_nil, Key.name?_text, Option.some.injEq, String.reduceEq, if_true, if_false,
    Option.map_some]
  constructor
  · intro h
    split at h
    · next hcurrent hsize hpages hitems hfilters hsorts hsearch =>
      obtain rfl := Except.ok.inj h
      simp only [placed_eq_ok] at hcurrent hsize hpages hitems hsearch
      exact ⟨hcurrent, hsize, hpages, hitems, hfilters, hsorts, hsearch⟩
    · simp at h
  · rintro ⟨hcurrent, hsize, hpages, hitems, hfilters, hsorts, hsearch⟩
    simp only [hcurrent, hsize, hpages, hitems, hfilters, hsorts, hsearch, placed]

theorem read_of_no_faults {α : Type} {place : List Key} {x : Except Defect α}
    (h : faults (placed place x) = []) : ∃ a, x = .ok a := by
  cases x with
  | error d => cases h
  | ok a => exact ⟨a, rfl⟩

theorem entries_eq_ok {α : Type} {place : Key} {read : Value → Except Defect α} {es : Fields}
    {fs : List (Key × α)} (h : entries place read (.map es) = .ok fs) :
    List.Forall₂ (fun e f => e.1 = f.1 ∧ read e.2 = .ok f.2) es fs := by
  have hmapping : placed [place] (mapping (.map es)) = .ok es := rfl
  unfold entries at h
  rw [hmapping] at h
  dsimp only [bind, Except.bind] at h
  split at h
  · next hnone =>
    rw [List.flatMap_eq_nil_iff, List.forall_mem_map] at hnone
    obtain rfl := pure_eq_ok.mp h
    clear h hmapping
    induction es with
    | nil => exact .nil
    | cons e es ih =>
      obtain ⟨k, v⟩ := e
      obtain ⟨hfirst, hrest⟩ := List.forall_mem_cons.mp hnone
      obtain ⟨a, ha⟩ := read_of_no_faults (List.append_eq_nil_iff.mp hfirst).2
      have htail := ih hrest
      dsimp only at ha
      simp only [List.map_cons, ha, placed]
      exact .cons ⟨rfl, ha⟩ htail
  · cases h

theorem eq_map_of_read {α : Type} {place : Key} {read : Value → Except Defect α} {es : Fields}
    {fs : List (Key × α)} (h : entries place read (.map es) = .ok fs) {f : α → Value}
    (hread : ∀ e ∈ es, ∀ a, read e.2 = .ok a → e.2 = f a) : es = fs.map fun g => (g.1, f g.2) := by
  have hentries := entries_eq_ok h
  clear h
  induction hentries with
  | nil => rfl
  | cons hfirst _ ih =>
    obtain ⟨hvalue, hrest⟩ := List.forall_mem_cons.mp hread
    rw [List.map_cons, ← ih hrest, ← hfirst.1, ← hvalue _ hfirst.2]

theorem string_ofKey {k : Key} {name : String} (h : k.name? = some name) :
    string (.ofKey k) = .ok name := by
  cases k with
  | text s | operator op | direction d => exact congrArg Except.ok (Option.some.inj h)
  | _ => cases h

theorem entries_succeeds {α : Type} {place : Key} {read : Value → Except Defect α} {es : Fields}
    (hkeys : ∀ e ∈ es, ∃ name, e.1.name? = some name) (hread : ∀ e ∈ es, ∃ a, read e.2 = .ok a) :
    Succeeds (entries place read (.map es)) := by
  have hmapping : placed [place] (mapping (.map es)) = .ok es := rfl
  unfold entries
  rw [hmapping]
  dsimp only [bind, Except.bind]
  split
  · exact ⟨_, rfl⟩
  · next hfaults =>
    refine (hfaults ?_).elim
    rw [List.flatMap_eq_nil_iff, List.forall_mem_map]
    intro e he
    obtain ⟨name, hname⟩ := hkeys e he
    obtain ⟨a, ha⟩ := hread e he
    simp only [string_ofKey hname, ha, placed, faults, List.append_nil]

end PageInfo

/-! ## Requests of parsed parameters -/

/-- The text that parameters search for; an empty one is none. -/
def QueryParams.searched (q : QueryParams) : String := q.search.getD ""

theorem QueryParams.searchText_eq (q : QueryParams) : q.toRequest.searchText = .text q.searched := by
  have hsearch : q.toRequest.search = q.search.elim .none .text := rfl
  rw [PageRequest.searchText, hsearch, searched]
  cases q.search with
  | none => rfl
  | some s =>
    by_cases hs : s = ""
    · rw [hs]
      rfl
    · have htrue : (Value.text s).isTrue = true := by simpa [Value.isTrue] using hs
      rw [Option.elim_some, if_pos htrue]
      rfl

theorem QueryParams.searchPredicate_eq (policy : FieldPolicy) (q : QueryParams) :
    q.toRequest.searchPredicate policy =
      if q.searched != "" && !policy.searchable.isEmpty then
        Predicate.search (.text q.searched) (policy.searchable.map .text)
      else [] := by
  have hsearch : q.toRequest.search = q.search.elim .none .text := rfl
  rw [PageRequest.searchPredicate, hsearch, searched]
  cases q.search with
  | none => rfl
  | some s => rfl

theorem PageRequest.getD_allowedSort (policy : FieldPolicy) (r : PageRequest) :
    (r.allowedSort policy).getD [] = policy.sanitizeSort r.sort.asFields := by
  unfold allowedSort
  cases policy.sanitizeSort r.sort.asFields <;> rfl

/-! ## Stages -/

/-- The order that a store is given for a request. -/
def PageRequest.givenOrder (policy : FieldPolicy) (r : PageRequest) : Value :=
  (r.allowedSort policy).elim .none fun order => .map (order.map fun (k, d) => (k, .text d.word))

/-- What is told about a page, under the long names. -/
def PageRequest.infoFields (policy : FieldPolicy) (r : PageRequest) (current take : Quantity)
    (pages total : Int) : Fields :=
  [(.text "current_page", current.toValue), (.text "items_per_page", take.toValue),
    (.text "total_pages", .int pages), (.text "total_items", .int total),
    (.text "filters", .map (r.allowedFilters policy)),
    (.text "sorts", .map (((r.allowedSort policy).getD []).map fun (k, d) => (k, .text d.word))),
    (.text "search", r.searchText)]

/-- The stages of serving a page from memory, each with its result. -/
structure Serving (s : MemoryStore) (config : Config) (base : Fields) (policy : FieldPolicy)
    (r : PageRequest) (page : Page) where
  current : Quantity
  take : Quantity
  skip : Quantity
  predicate : Fields
  matched : List Value
  sorted : List Value
  rows : List Value
  pages : Int
  numbers_eq : r.numbers config = .ok (current, take, skip)
  predicate_eq : r.predicate base policy = .ok predicate
  matched_eq : MemoryStore.matching (.map predicate) s.records = .ok matched
  sorted_eq : MemoryStore.ordered (r.givenOrder policy) matched = .ok sorted
  rows_eq : Window.slice skip.toValue take.toValue sorted = .ok rows
  records_eq : MemoryStore.projected (.map (PageRequest.options base)) rows = .ok page.records
  pages_eq : Quantity.pages (.int matched.length) take = .ok pages
  info_eq : PageInfo.ofFields (r.infoFields policy current take pages matched.length) =
    .ok page.info

variable {s : MemoryStore} {config : Config} {base : Fields} {policy : FieldPolicy}
  {r : PageRequest} {page : Page}

theorem PageRequest.plan_eq : r.plan config (.map base) policy = do
    let (current, take, skip) ← r.numbers config
    let predicate ← r.predicate base policy
    return ⟨current, ⟨predicate, r.allowedSort policy, skip, take, options base⟩⟩ := by
  cases base <;> rfl

/-- The entries of what may stand for a base query; whatever counts as false has none. -/
def PageRequest.baseFields (base : Value) : Except Failure Fields :=
  if base.isTrue then base.toFields else .ok []

theorem PageRequest.plan_base (r : PageRequest) (config : Config) (base : Value)
    (policy : FieldPolicy) :
    r.plan config base policy = (baseFields base >>= fun es => r.plan config (.map es) policy) := by
  simp only [PageRequest.plan_eq]
  unfold PageRequest.plan baseFields
  cases hbase : base.isTrue with
  | true => rfl
  | false => rfl

theorem PageRequest.plan_eq_ok {plan : PageRequest.Plan} :
    r.plan config (.map base) policy = .ok plan ↔
      ∃ current take skip q, r.numbers config = .ok (current, take, skip) ∧
        r.predicate base policy = .ok q ∧
        plan = ⟨current, ⟨q, r.allowedSort policy, skip, take, options base⟩⟩ := by
  simp only [PageRequest.plan_eq, bind_eq_ok, pure_eq_ok, Prod.exists]
  constructor
  · rintro ⟨current, take, skip, hnumbers, q, hq, rfl⟩
    exact ⟨current, take, skip, q, hnumbers, hq, rfl⟩
  · rintro ⟨current, take, skip, q, hnumbers, hq, rfl⟩
    exact ⟨current, take, skip, hnumbers, q, hq, rfl⟩

theorem paginate_of_plan {config : Config} {base : Value} {policy : FieldPolicy} {r : PageRequest}
    {plan : PageRequest.Plan} (h : r.plan config base policy = .ok plan)
    (store : PageStore (Except Failure)) :
    paginate store config base policy r =
      (store.count plan.fetch.predicate >>= fun total => store.fetch plan.fetch >>= fun records =>
        plan.page policy r total records) := by
  simp only [paginate, ofExcept_eq, h]
  rfl

/-- A page is served exactly if each stage gives a result. -/
theorem paginate_eq_ok :
    paginate s.toPageStore config (.map base) policy r = .ok page ↔
      Nonempty (Serving s config base policy r page) := by
  unfold paginate
  simp only [ofExcept_eq, bind_eq_ok, PageRequest.plan_eq_ok, PageRequest.Plan.page,
    MemoryStore.toPageStore, MemoryStore.count, MemoryStore.fetch, pure_eq_ok]
  constructor
  · rintro ⟨plan, ⟨current, take, skip, q, hnumbers, hq, rfl⟩, total,
      ⟨count, ⟨matched, hmatched, rfl⟩, rfl⟩, records,
      ⟨matched', hmatched', sorted, hsorted, rows, hrows, hrecords⟩, pages, hpages, info, hinfo, rfl⟩
    obtain rfl := Except.ok.inj (hmatched.symm.trans hmatched')
    exact ⟨⟨current, take, skip, q, matched, sorted, rows, pages, hnumbers, hq, hmatched, hsorted,
      hrows, hrecords, hpages, hinfo⟩⟩
  · rintro ⟨v⟩
    exact ⟨_, ⟨v.current, v.take, v.skip, v.predicate, v.numbers_eq, v.predicate_eq, rfl⟩,
      .int v.matched.length, ⟨v.matched.length, ⟨v.matched, v.matched_eq, rfl⟩, rfl⟩, page.records,
      ⟨v.matched, v.matched_eq, v.sorted, v.sorted_eq, v.rows, v.rows_eq, v.records_eq⟩,
      v.pages, v.pages_eq, page.info, v.info_eq, rfl⟩

theorem exists_baseFields {base : Value}
    (h : paginate s.toPageStore config base policy r = .ok page) :
    ∃ es, PageRequest.baseFields base = .ok es := by
  unfold paginate at h
  rw [ofExcept_eq, PageRequest.plan_base, bind_eq_ok] at h
  obtain ⟨plan, hplan, -⟩ := h
  obtain ⟨es, hes, -⟩ := bind_eq_ok.mp hplan
  exact ⟨es, hes⟩

theorem paginate_of_base {base : Value} {es : Fields} (h : PageRequest.baseFields base = .ok es)
    (r : PageRequest) :
    paginate s.toPageStore config base policy r =
      paginate s.toPageStore config (.map es) policy r := by
  unfold paginate
  rw [PageRequest.plan_base, h]
  rfl

end Listing
