import Listing.Config
import Listing.Value.Basic

/-!
# Query parameters

What a request asks for: a page, its size, filters, a search and a sort.
-/

namespace Listing

/-- The parameters of a query, parsed and not yet held against a policy. -/
structure QueryParams where
  page : Int := 1
  itemsPerPage : Int := 10
  filters : Option Fields := none
  search : Option String := none
  sort : Option Fields := none

end Listing
