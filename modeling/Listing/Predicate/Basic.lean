import Listing.Value.Mapping

/-!
# Predicates

What a store is asked for: a mapping of fields to conditions in native keys, or, for a relation, to
predicates on what it leads to, joined by the logical keys `AND`, `OR` and `NOT`. A predicate is plain
data, so that a server can write one by hand.
-/

namespace Listing.Predicate

/-- A way to join predicates. -/
inductive Junction where
  | all | any | none
deriving DecidableEq

def Junction.key : Junction → String
  | all => "AND" | any => "OR" | none => "NOT"

def junction? (k : Key) : Option Junction :=
  [Junction.all, .any, .none].find? fun j => k.same (.text j.key)

def nativeKey? (k : Key) : Option NativeKey := k.name?.bind NativeKey.ofName?

def isNativeKey (k : Key) : Bool := (nativeKey? k).isSome

/-- Whether all entries of a mapping have native keys: a condition on a field. -/
def isNativeCondition (es : Fields) : Bool := es.all fun (k, _) => isNativeKey k

/-- Whether a value is a condition on a field. -/
def isNative (v : Value) : Bool := v.fields?.any isNativeCondition

/-- The predicate that holds where all the given ones do. -/
def all (predicates : List Fields) : Fields :=
  match predicates.filter (!·.isEmpty) with
  | [] => []
  | [p] => p
  | clauses => [(.text Junction.all.key, .list (clauses.map .map))]

/-- The predicate that holds where all the given ones do, if they are mappings or rows of pairs; what
counts as false is left out. -/
def conjunction (predicates : List Value) : Except Failure Fields := do
  match ← (predicates.filter (·.isTrue)).mapM Value.toFields with
  | [] => return []
  | [p] => return p
  | clauses => return [(.text Junction.all.key, .list (clauses.map .map))]

def searchCondition (search : Value) : Value :=
  .map [(.text Operator.contains.nativeKey, search), (.text Operator.mode.nativeKey, .text "insensitive")]

/-- The predicate that holds where one of several fields contains a text, in any case. -/
def search (search : Value) (fields : List Key) : Fields :=
  [(.text Junction.any.key, .list (fields.map fun k => .map [(k, searchCondition search)]))]

/-- The predicate of a search in the fields that running through a value yields. -/
def searchIn (text fields : Value) : Except Failure Fields := do
  return search text (← (← fields.iterate).mapM Value.toKey?)

end Listing.Predicate
