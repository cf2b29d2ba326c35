import Listing.Key

/-!
# Field policies

What a resource lets its clients do: which fields they may filter on and with which operators, which
fields a search looks into, and which fields they may sort by. A field that is a relation carries the
rules of the related fields.
-/

namespace Listing

/-- The rule for one filterable name: the operators of a field, or the rules of a relation. -/
inductive Rule where
  | operators (ops : List Operator)
  | nested (fields : List (Key × Rule))

/-- The rule for one sortable name: whether sorting is allowed, or a direction that always wins. -/
inductive SortRule where
  | allowed (b : Bool)
  | forced (d : Direction)
deriving DecidableEq

/-- The allow-lists of one resource. -/
structure FieldPolicy where
  filterable : Entries Rule := []
  searchable : List String := []
  sortable : Entries SortRule := []

end Listing
