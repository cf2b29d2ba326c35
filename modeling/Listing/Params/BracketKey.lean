/-!
# Bracket keys

A query key names a place in a tree of filters by a label and one bracketed group per name:
`filters[author][name]`. `BracketKey.write` is the grammar and `BracketKey.read?` reads it.
-/

namespace Listing.BracketKey

/-- The greatest number of names in a key. -/
def maxNames : Nat := 32

def isNameChar (c : Char) : Bool := c != '[' && c != ']'

/-- A name in brackets. -/
def group (name : String) : List Char := '[' :: name.toList ++ [']']

/-- The key of a label and names. -/
def write (label : String) (names : List String) : String :=
  String.ofList (label.toList ++ names.flatMap group)

mutual

/-- Reads groups from a place between them. -/
def between? : List Char → Option (List String)
  | [] => some []
  | c :: cs => if c = '[' then within? [] cs else none
termination_by structural cs => cs

/-- Reads groups from a place within one, whose name so far is given backwards. -/
def within? (name : List Char) : List Char → Option (List String)
  | [] => none
  | c :: cs =>
    if c = ']' then (between? cs).map (String.ofList name.reverse :: ·)
    else if c = '[' then none
    else within? (c :: name) cs
termination_by structural cs => cs

end

/-- The names of a key under a label: one to `maxNames` of them, none empty. -/
def read? (label key : String) : Option (List String) :=
  let cs := key.toList
  if label.toList.isPrefixOf cs then
    match between? (cs.drop label.toList.length) with
    | some names =>
      if names.isEmpty || names.any (· == "") || maxNames < names.length then none else some names
    | none => none
  else none

end Listing.BracketKey
