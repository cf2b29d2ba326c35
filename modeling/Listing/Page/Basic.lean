import Listing.Config
import Listing.Journal
import Listing.Page.Info
import Listing.Page.Quantity
import Listing.Params.Basic
import Listing.Policy.Filters
import Listing.Policy.Sort
import Listing.Predicate.Filters

/-!
# Planning a page

From the configuration, the server's base query, the policy of a resource and a request follows what
the store is asked for: one predicate that joins the base query, the allowed filters and the search,
an order, and the window of the page. The page itself is put together from what the store answers.
-/

namespace Listing

/-- A request for a page, as values: what a parser read or what a server wrote by hand. -/
structure PageRequest where
  page : Value := .int 1
  itemsPerPage : Value := .int 10
  filters : Value := .none
  search : Value := .none
  sort : Value := .none

def QueryParams.toRequest (q : QueryParams) : PageRequest where
  page := .int q.page
  itemsPerPage := .int q.itemsPerPage
  filters := q.filters.elim .none .map
  search := q.search.elim .none .text
  sort := q.sort.elim .none .map

/-- What a store is asked for. -/
structure Fetch where
  predicate : Fields
  order : Option SortOrder
  skip : Quantity
  take : Quantity
  options : Fields

/-- The order as the value that a store is given. -/
def Fetch.orderValue (f : Fetch) : Value :=
  f.order.elim .none fun order => .map (order.map fun (k, d) => (k, .text d.word))

structure Page where
  records : List Value
  info : PageInfo

namespace PageRequest

/-- The number of the page, the size of a page and the number of records before the page. -/
def numbers (config : Config) (r : PageRequest) : Except Failure (Quantity × Quantity × Quantity) := do
  let current ← Quantity.atLeastOne r.page
  let size ← Quantity.atLeastOne r.itemsPerPage
  let size := config.maxItemsPerPage.elim size fun ceiling => size.capped (max 1 ceiling)
  return (current, size, ← current.pred.times size)

def allowedFilters (policy : FieldPolicy) (r : PageRequest) : Fields :=
  policy.sanitizeFilters r.filters.asFields

/-- The sort that the policy allows, if it leaves any. -/
def allowedSort (policy : FieldPolicy) (r : PageRequest) : Option SortOrder :=
  let order := policy.sanitizeSort r.sort.asFields
  if order.isEmpty then none else some order

/-- The text searched for; what counts as false is no text. -/
def searchText (r : PageRequest) : Value := if r.search.isTrue then r.search else .text ""

def searchPredicate (policy : FieldPolicy) (r : PageRequest) : Fields :=
  if r.search.isTrue && !policy.searchable.isEmpty then
    Predicate.search r.search (policy.searchable.map .text)
  else []

/-- The predicate that the store is asked for. -/
def predicate (base : Fields) (policy : FieldPolicy) (r : PageRequest) : Except Failure Fields :=
  Predicate.conjunction [(base.find "where").getD .none,
    .map (Predicate.ofFilters (r.allowedFilters policy)), .map (r.searchPredicate policy)]

/-- The entries of a base query that are not handed to the store. -/
def reserved : List String := ["where", "orderBy", "skip", "take"]

/-- The entries of a base query that the store is given as they are. -/
def options (base : Fields) : Fields :=
  base.filter fun (k, _) => !reserved.any fun name => k.same (.text name)

/-- A planned page: its number and what the store is asked for. -/
structure Plan where
  current : Quantity
  fetch : Fetch

def plan (config : Config) (base : Value) (policy : FieldPolicy) (r : PageRequest) :
    Except Failure Plan := do
  let base ← if base.isTrue then base.toFields else .ok []
  let (current, take, skip) ← r.numbers config
  let predicate ← r.predicate base policy
  return ⟨current, { predicate, order := r.allowedSort policy, skip, take, options := options base }⟩

/-- The page of a plan, given the store's total and records. -/
def Plan.page (plan : Plan) (policy : FieldPolicy) (r : PageRequest) (total : Value)
    (records : List Value) : Except Failure Page := do
  let pages ← Quantity.pages total plan.fetch.take
  let sorts := (plan.fetch.order.getD []).map fun (k, d) => (k, .text d.word)
  let info ← PageInfo.ofFields [
    (.text "current_page", plan.current.toValue),
    (.text "items_per_page", plan.fetch.take.toValue),
    (.text "total_pages", .int pages),
    (.text "total_items", total),
    (.text "filters", .map (r.allowedFilters policy)),
    (.text "sorts", .map sorts),
    (.text "search", r.searchText)]
  return { records, info }

/-- The events of planning and fetching a page, given the page if there is one. -/
def journal (config : Config) (base : Value) (policy : FieldPolicy) (r : PageRequest)
    (page : Option Page) : Journal :=
  match (if base.isTrue then base.toFields else .ok []), r.numbers config with
  | .ok base, .ok _ =>
    policy.filtersJournal r.filters.asFields ++
      (match r.predicate base policy with
        | .ok _ => policy.sortJournal r.sort.asFields
        | .error _ => []) ++
      (page.map fun p => Event.pageFetched p.info.currentPage p.records.length p.info.itemsPerPage
        p.info.totalItems).toList
  | _, _ => []

end PageRequest
end Listing
