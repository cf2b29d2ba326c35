import Listing.Json
import Listing.Params.Basic
import Listing.Params.Source
import Listing.Params.Tree
import Listing.Value.Depth

/-!
# Parsing parameters

Reads page, page size, filters, sort and search from the pairs of a query. Filters and sort come from
one JSON object under their key or, where that is missing or unusable, from bracketed keys. Numbers
that cannot be read give way to the configured defaults.
-/

namespace Listing

/-- The deepest nesting of filters that a JSON object may have. -/
def maxFilterDepth : Nat := 32

/-- What stands under a key that may hold a JSON object. -/
inductive ObjectParam where
  | absent
  | malformed
  | notObject
  | tooDeep
  | object (es : Fields)

namespace ObjectParam

def ofValue : Value → ObjectParam
  | .map es => if Value.deeper maxFilterDepth (.map es) then tooDeep else object es
  | _ => notObject

/-- Reads the value of a parameter: a mapping as it is, a text as JSON. -/
def ofParam? : Option Value → ObjectParam
  | none => absent
  | some (.map es) => ofValue (.map es)
  | some v =>
    match v.text? with
    | none => absent
    | some s => if s = "" then absent else (Json.parse? s).elim malformed ofValue

/-- The entries of the object, if there is a usable one. -/
def fields? : ObjectParam → Option Fields
  | object es => some es
  | _ => none

/-- The events of reading the parameter of a name. -/
def journal (name : String) : ObjectParam → Journal
  | malformed => [.malformedJson name]
  | notObject => [.jsonNotObject name]
  | tooDeep => [.jsonTooDeep name]
  | _ => []

end ObjectParam

namespace QueryParams

/-- The entries of a mapping, unless there are none. -/
def nonempty? (es : Fields) : Option Fields := if es.isEmpty then none else some es

/-- A page number or page size: an integer as it is, or the integer that the text of any other value
starts with, else the default. -/
def integer (default : Int) : Option Value → Except Failure Int
  | none | some .none | some (.bool _) => .ok default
  | some (.int n) => .ok n
  | some v => do
    match Numeral.leadingInteger (← v.display).toList with
    | .read n => return n
    | _ => return default

def parseFilters (config : Config) (pairs : List (Value × Value)) : Except Failure Fields :=
  match (ObjectParam.ofParam? (Source.first? pairs config.filtersKey)).fields? with
  | some es => .ok (FilterTree.ofJson es)
  | none => FilterTree.ofBrackets config.filtersKey pairs

def sortItem? (label : String) (pair : Value × Value) : Except Failure (Option (Key × Value)) := do
  match BracketKey.read? label (← FilterTree.keyText pair.1) with
  | some [name] => return some (.text name, .text (Text.lower (← pair.2.display)))
  | _ => return none

def parseSort (config : Config) (pairs : List (Value × Value)) : Except Failure Fields :=
  match (ObjectParam.ofParam? (Source.first? pairs config.sortKey)).fields? with
  | some es => .ok (es.filter fun (k, _) => FilterTree.isName k)
  | none => do return Entries.ofPairs ((← pairs.mapM (sortItem? config.sortKey)).filterMap id)

/-- The search of a query; an empty one is none. -/
def parseSearch : Option Value → Except Failure (Option String)
  | none => .ok none
  | some v => if v.isTrue then do return some (← v.display) else .ok none

def ofPairs (config : Config) (pairs : List (Value × Value)) : Except Failure QueryParams := do
  let filters ← parseFilters config pairs
  let sort ← parseSort config pairs
  let search := Source.first? pairs config.searchKey
  let page ← integer config.defaultPage (Source.first? pairs config.pageKey)
  let itemsPerPage ← integer config.defaultItemsPerPage (Source.first? pairs config.itemsPerPageKey)
  return {
    page
    itemsPerPage
    filters := nonempty? filters
    search := ← parseSearch search
    sort := nonempty? sort }

/-- The parameters that raw input describes. -/
def parse (config : Config) (raw : Value) : Except Failure QueryParams := do
  ofPairs config (← Source.pairs raw)

/-- The events of parsing a row of pairs. Sort is not reached when the filters fail. -/
def journalOfPairs (config : Config) (pairs : List (Value × Value)) : Journal :=
  let filters := ObjectParam.ofParam? (Source.first? pairs config.filtersKey)
  let sort := ObjectParam.ofParam? (Source.first? pairs config.sortKey)
  filters.journal config.filtersKey ++ filters.fields?.elim [] FilterTree.jsonJournal ++
    match parseFilters config pairs with
    | .ok _ => sort.journal config.sortKey
    | .error _ => []

def journal (config : Config) (raw : Value) : Journal :=
  match Source.pairs raw with
  | .ok pairs => journalOfPairs config pairs
  | .error _ => []

end QueryParams
end Listing
