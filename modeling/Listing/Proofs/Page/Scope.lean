import Listing.Proofs.Memory.Window
import Listing.Proofs.Page.Serve
import Listing.Proofs.Sql.Conjunction
import Listing.Sql.Sample
import Mathlib.Data.List.Perm.Subperm

/-!
# Scoping requests

What a paginator's base query and the scope of a request demand, no request can lift: the records
behind a page satisfy both, and the total counts the records that satisfy these, the allowed filters
and the search, each taken alone.
-/

namespace Listing

open Outcome Predicate

/-! ## Narrowing the base query -/

theorem PageRequest.options_put (es : Fields) (v : Value) :
    options (es.put (.text "where") v) = options es := by
  have hreserved : ∀ k : Key, k.same (.text "where") = true →
      (reserved.any fun name => k.same (.text name)) = true := by
    intro k hk
    exact List.any_eq_true.mpr ⟨"where", by simp [reserved], hk⟩
  unfold options
  induction es with
  | nil => rfl
  | cons e es ih =>
    obtain ⟨k, w⟩ := e
    rw [Entries.put]
    split
    · next hk => simp only [List.filter_cons, hreserved k hk, Bool.not_true, Bool.false_eq_true,
        if_false]
    · rw [List.filter_cons, List.filter_cons, ih]

theorem Paginator.narrowed_eq_ok {m : Type → Type} {p : Paginator m} {scope : Value} {base : Fields}
    (h : p.narrowed scope = .ok base) :
    PageRequest.options base = PageRequest.options p.base ∧ ∀ record,
      admits ((base.find "where").getD .none) record =
        (admits ((p.base.find "where").getD .none) record && admits scope record) := by
  unfold narrowed at h
  split at h
  · obtain ⟨both, hboth, hbase⟩ := bind_eq_ok.mp h
    rw [pure_eq_ok] at hbase
    subst hbase
    refine ⟨PageRequest.options_put _ _, fun record => ?_⟩
    rw [Entries.find_put, if_pos rfl, Option.getD_some, Bool.eq_iff_iff, admits_map, valueHolds,
      holds_conjunction hboth]
    simp
  · next hscope =>
    rw [← Except.ok.inj h]
    refine ⟨rfl, fun record => ?_⟩
    have hadmits : admits scope record = true := by
      rw [admits, eq_false_of_ne_true hscope]
      rfl
    rw [hadmits, Bool.and_true]

/-! ## Records behind a page -/

/-- What the records behind a page must satisfy: the base query, the filters that the policy allows, and
the search. -/
def PageRequest.demands (base : Fields) (policy : FieldPolicy) (r : PageRequest) : List Value :=
  [(base.find "where").getD .none, .map (ofFilters (r.allowedFilters policy)),
    .map (r.searchPredicate policy)]

def Paginator.demands {m : Type → Type} (p : Paginator m) (scope : Value) (r : PageRequest) :
    List Value :=
  scope :: r.demands p.base p.policy

variable {s : MemoryStore} {config : Config} {base : Fields} {policy : FieldPolicy}
  {r : PageRequest} {page : Page}

theorem Serving.matched_eq_filter (v : Serving s config base policy r page) :
    v.matched = s.records.filter fun record => (r.demands base policy).all (admits · record) := by
  rw [MemoryStore.matching_eq_filter v.matched_eq]
  refine List.filter_congr fun record _ => ?_
  rw [Bool.eq_iff_iff, isYes_iff, valueHolds, holds_conjunction v.predicate_eq, List.all_eq_true]
  rfl

theorem Serving.rows_subperm (v : Serving s config base policy r page) :
    v.rows.Subperm v.matched :=
  (Window.slice_sublist v.rows_eq).subperm.trans (MemoryStore.ordered_perm v.sorted_eq).subperm

theorem Serving.totalItems_eq (v : Serving s config base policy r page) :
    page.info.totalItems = v.matched.length := by
  obtain ⟨-, -, -, htotal, -⟩ := PageInfo.ofFields_eq_ok.mp v.info_eq
  exact (Except.ok.inj htotal).symm

/-- The stages of serving a page under a scope: the records behind the page are among those that meet
the demands, and the total is the number of these. -/
theorem Paginator.serving_of_paginate {p : Paginator (Except Failure)} (hstore : p.store = s.toPageStore)
    {scope : Value} (h : p.paginate scope r = .ok page) :
    ∃ base, ∃ v : Serving s p.config base p.policy r page,
      PageRequest.options base = PageRequest.options p.base ∧
      v.matched = s.records.filter fun record => (p.demands scope r).all (admits · record) := by
  unfold Paginator.paginate at h
  rw [ofExcept_eq, hstore] at h
  obtain ⟨base, hbase, hpage⟩ := bind_eq_ok.mp h
  obtain ⟨hoptions, hadmits⟩ := narrowed_eq_ok hbase
  obtain ⟨v⟩ := paginate_eq_ok.mp hpage
  refine ⟨base, v, hoptions, v.matched_eq_filter.trans ?_⟩
  refine List.filter_congr fun record _ => ?_
  simp only [demands, PageRequest.demands, List.all_cons, hadmits, Bool.and_assoc,
    Bool.and_left_comm]

/-- **Server-side scoping.** Over a store in memory, the records behind a page are stored records that
meet every demand, with no more occurrences than in the store, and the total is the number of stored
records that do. Over a database, joined predicates that each compile have one clause, which selects
of every table the rows that each of their clauses selects. -/
theorem scope_kept :
    (∀ (s : MemoryStore) (p : Paginator (Except Failure)) (scope : Value) (r : PageRequest)
      (page : Page), p.store = s.toPageStore → p.paginate scope r = .ok page →
      ∃ rows, MemoryStore.projected (.map (PageRequest.options p.base)) rows = .ok page.records ∧
        rows.Subperm (s.records.filter fun record => (p.demands scope r).all (admits · record)) ∧
        page.info.totalItems =
          (s.records.filter fun record => (p.demands scope r).all (admits · record)).length) ∧
    (∀ (schema : Sql.Schema) (registry : Sql.Registry) (m : Sql.Model) (predicates : List Value)
      (clauses : List Sql.Clause),
      predicates.mapM (Sql.clauseOf schema registry m) = .ok clauses →
      ∃ q clause, conjunction predicates = .ok q ∧
        Sql.compile schema registry m (.map q) = .ok clause ∧
        ∀ db row, clause.selects db row = clauses.all fun c => c.selects db row) := by
  constructor
  · intro s p scope r page hstore hpage
    obtain ⟨base, v, hoptions, hmatched⟩ := Paginator.serving_of_paginate hstore hpage
    refine ⟨v.rows, ?_, ?_, ?_⟩
    · rw [← hoptions]
      exact v.records_eq
    · rw [← hmatched]
      exact v.rows_subperm
    · rw [← hmatched]
      exact v.totalItems_eq
  · intro schema registry m predicates clauses hclauses
    exact Sql.compile_conjunction schema registry m hclauses

/-! ## A tenant -/

def tenantRecord (tenant age : Int) : Value :=
  .map [(.text "tenant", .int tenant), (.text "age", .int age)]

def tenantStore : MemoryStore := ⟨[tenantRecord 1 30, tenantRecord 2 40, tenantRecord 1 12]⟩

def tenantPaginator : Paginator (Except Failure) where
  store := tenantStore.toPageStore
  policy := { filterable := [(.text "age", .operators [.gte])] }
  base := [(.text "where", .map [(.text "tenant", .int 1)])]

def grownUp : Value := .map [(.text "age", .map [(.text NativeKey.gte.name, .int 18)])]

/-- A request that asks for the records of another tenant. -/
def foreignRequest : PageRequest where
  filters := .map [(.text "age", .map [(.text Operator.gte.token, .int 5)]), (.text "tenant", .int 2)]

/-- The request is served with the one grown-up record of the tenant; over a database the scope joins a
predicate that is absent. -/
theorem scope_kept_tenant :
    (∃ page rows, tenantPaginator.paginate grownUp foreignRequest = .ok page ∧
      MemoryStore.projected (.map (PageRequest.options tenantPaginator.base)) rows =
        .ok page.records ∧
      rows.Subperm [tenantRecord 1 30] ∧ page.info.totalItems = 1) ∧
    ∃ clauses q clause,
      [grownUp, .none].mapM (Sql.clauseOf Sql.Sample.schema .standard Sql.Sample.user) =
        .ok clauses ∧
      conjunction [grownUp, .none] = .ok q ∧
      Sql.compile Sql.Sample.schema .standard Sql.Sample.user (.map q) = .ok clause ∧
      ∀ db row, clause.selects db row = clauses.all fun c => c.selects db row := by
  have hdemands : (tenantStore.records.filter fun record =>
      (tenantPaginator.demands grownUp foreignRequest).all (admits · record)) =
        [tenantRecord 1 30] := rfl
  constructor
  · obtain ⟨rows, hrecords, hsub, htotal⟩ :=
      scope_kept.1 tenantStore tenantPaginator grownUp foreignRequest _ rfl rfl
    rw [hdemands] at hsub htotal
    exact ⟨_, rows, rfl, hrecords, hsub, htotal⟩
  · obtain ⟨q, clause, hq, hclause, hselects⟩ :=
      scope_kept.2 Sql.Sample.schema .standard Sql.Sample.user [grownUp, .none] _ rfl
    exact ⟨_, q, clause, rfl, hq, hclause, hselects⟩

end Listing
