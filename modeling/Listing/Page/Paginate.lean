import Listing.Memory.Store
import Listing.Page.Basic
import Listing.Params.Parse

/-!
# Fetching pages

A page is counted and fetched through whatever serves as a store. A paginator binds a store, a policy
and a base query for many requests.
-/

namespace Listing

/-- Counts and fetches the records of one resource. -/
structure PageStore (m : Type → Type) where
  count : Fields → m Value
  fetch : Fetch → m (List Value)

def MemoryStore.toPageStore (s : MemoryStore) : PageStore (Except Failure) where
  count predicate := do return .int (← s.count (.map predicate))
  fetch f := s.fetch (.map f.predicate) f.orderValue f.skip.toValue f.take.toValue (.map f.options)

def paginate {m : Type → Type} [Monad m] [MonadExceptOf Failure m] (store : PageStore m)
    (config : Config) (base : Value) (policy : FieldPolicy) (r : PageRequest) : m Page := do
  let plan ← ofExcept (r.plan config base policy)
  let total ← store.count plan.fetch.predicate
  let records ← store.fetch plan.fetch
  ofExcept (plan.page policy r total records)

/-- What is bound for many requests. -/
structure Paginator (m : Type → Type) where
  store : PageStore m
  policy : FieldPolicy
  base : Fields := []
  config : Config := {}

namespace Paginator

variable {m : Type → Type}

def bind (store : PageStore m) (policy : FieldPolicy) (base : Value) (config : Config) :
    Except Failure (Paginator m) := do
  return { store, policy, base := ← if base.isTrue then base.toFields else .ok [], config }

/-- The base query of a request, narrowed by a further predicate if there is one. -/
def narrowed (p : Paginator m) (scope : Value) : Except Failure Fields :=
  if scope.isTrue then do
    let both ← Predicate.conjunction [(p.base.find "where").getD .none, scope]
    return p.base.put (.text "where") (.map both)
  else .ok p.base

/-- Fetches the page of a request under a further predicate. -/
def paginate [Monad m] [MonadExceptOf Failure m] (p : Paginator m) (scope : Value)
    (r : PageRequest) : m Page := do
  let base ← ofExcept (p.narrowed scope)
  Listing.paginate p.store p.config (.map base) p.policy r

def paginateRaw [Monad m] [MonadExceptOf Failure m] (p : Paginator m) (scope raw : Value) :
    m Page := do
  let q ← ofExcept (QueryParams.parse p.config raw)
  p.paginate scope q.toRequest

/-- The events of fetching the page of a request, given the page if there is one. -/
def journal (p : Paginator m) (scope : Value) (r : PageRequest) (page : Option Page) : Journal :=
  match p.narrowed scope with
  | .ok base => r.journal p.config (.map base) p.policy page
  | .error _ => []

def journalRaw (p : Paginator m) (scope raw : Value) (page : Option Page) : Journal :=
  QueryParams.journal p.config raw ++
    match QueryParams.parse p.config raw with
    | .ok q => p.journal scope q.toRequest page
    | .error _ => []

end Paginator
end Listing
