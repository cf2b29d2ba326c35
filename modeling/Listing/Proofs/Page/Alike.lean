import Listing.Page.Paginate

/-!
# Requests that ask for the same

Two requests whose numbers, allowed filters, allowed sort and search are the same under a policy are
planned alike: the store is asked for the same, and told of its answers is the same page.
-/

namespace Listing

/-- Two requests that a policy makes the same of. -/
structure PageRequest.Alike (config : Config) (policy : FieldPolicy) (r r' : PageRequest) : Prop where
  numbers : r.numbers config = r'.numbers config
  filters : r.allowedFilters policy = r'.allowedFilters policy
  sort : r.allowedSort policy = r'.allowedSort policy
  text : r.searchText = r'.searchText
  search : r.searchPredicate policy = r'.searchPredicate policy

namespace PageRequest.Alike

variable {config : Config} {policy : FieldPolicy} {r r' : PageRequest}

theorem plan_eq (h : Alike config policy r r') (base : Value) :
    r.plan config base policy = r'.plan config base policy := by
  have hpredicate : ∀ es, r.predicate es policy = r'.predicate es policy := by
    intro es
    unfold PageRequest.predicate
    rw [h.filters, h.search]
  unfold PageRequest.plan
  simp only [h.numbers, h.sort, hpredicate]

theorem page_eq (h : Alike config policy r r') (plan : PageRequest.Plan) (total : Value)
    (records : List Value) :
    plan.page policy r total records = plan.page policy r' total records := by
  unfold PageRequest.Plan.page
  rw [h.filters, h.text]

variable {m : Type → Type} [Monad m] [MonadExceptOf Failure m]

/-- Whatever serves as a store, it is asked for the same and gives the same page. -/
theorem paginate_eq (h : Alike config policy r r') (store : PageStore m) (base : Value) :
    paginate store config base policy r = paginate store config base policy r' := by
  unfold paginate
  simp only [h.plan_eq, h.page_eq]

theorem paginator_eq {p : Paginator m} (h : Alike p.config p.policy r r') (scope : Value) :
    p.paginate scope r = p.paginate scope r' := by
  unfold Paginator.paginate
  simp only [h.paginate_eq]

end PageRequest.Alike

theorem QueryParams.asFields_nonempty? (es : Fields) :
    ((nonempty? es).elim Value.none Value.map).asFields = es := by
  cases es <;> rfl

structure Config.DefaultNames (config : Config) : Prop where
  page : config.pageKey = "page"
  itemsPerPage : config.itemsPerPageKey = "itemsPerPage"
  filters : config.filtersKey = "filters"
  sort : config.sortKey = "sort"
  search : config.searchKey = "search"

end Listing
