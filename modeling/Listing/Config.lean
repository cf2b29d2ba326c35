/-!
# Configuration

The names of the query parameters, the defaults for what a query leaves out, and the ceiling of the
page size.
-/

namespace Listing

/-- The configuration of a listing. -/
structure Config where
  defaultPage : Int := 1
  defaultItemsPerPage : Int := 10
  maxItemsPerPage : Option Int := none
  pageKey : String := "page"
  itemsPerPageKey : String := "itemsPerPage"
  filtersKey : String := "filters"
  sortKey : String := "sort"
  searchKey : String := "search"
deriving DecidableEq, Inhabited

end Listing
