import Listing.Journal
import Listing.Params.BracketKey
import Listing.Params.Operand

/-!
# Filter trees

The tree of filters that a query describes, in either of two encodings. From a JSON object,
`ofJson` keeps what has the shape of a filter: known operators in conditions, relations, and bare
values as equalities. From bracketed keys, `ofBrackets` writes one operand after the other, so the
last value for a place and operator wins.
-/

namespace Listing.FilterTree

/-- Whether a key is written as an operator token, known or not. -/
def isMarked (k : Key) : Bool := k.name?.any fun s => s.toList.head? == some '$'

def knownOperators (es : Fields) : Fields :=
  es.filterMap fun (k, v) => k.operator?.map fun op => (.text op.token, v)

/-- Whether a key can be the name of a field. -/
def isName (k : Key) : Bool := k.name?.any (· != "")

/-- The mapping of one bare value as an equality. -/
def equality (v : Value) : Value := Value.single Operator.eq.token v

/-- An entry of a tree, unless its mapping is empty. -/
def entry (k : Key) (es : Fields) : Fields := if es.isEmpty then [] else [(k, .map es)]

mutual

/-- The part of a JSON object that has the shape of filters. -/
def ofJson : List (Key × Value) → Fields
  | [] => []
  | (k, v) :: rest =>
    (if isName k then ofJsonValue k v else []) ++ ofJson rest
termination_by structural es => es

/-- The entry that a field of a JSON object leaves. -/
def ofJsonValue (k : Key) : Value → Fields
  | .map es => if es.any (isMarked ·.1) then entry k (knownOperators es) else entry k (ofJson es)
  | v => [(k, equality v)]
termination_by structural v => v

end

mutual

/-- The events of reading a JSON object as filters. -/
def jsonJournal : List (Key × Value) → Journal
  | [] => []
  | (k, v) :: rest => (if isName k then jsonValueJournal k v else []) ++ jsonJournal rest
termination_by structural es => es

def jsonValueJournal (k : Key) : Value → Journal
  | .map es =>
    if es.any (isMarked ·.1) then
      (es.filter fun (token, _) => token.operator?.isNone).map fun _ => .unknownOperator k
    else jsonJournal es
  | _ => []
termination_by structural v => v

end

/-- The entries of the mapping under a name; none if something else, or nothing, is there. -/
def branch (tree : Fields) (name : String) : Fields :=
  match tree.find name with
  | some (.map es) => es
  | _ => []

/-- Writes an operand at a place, making mappings of whatever stands on the way. -/
def write (tree : Fields) : List String → Operator → Value → Fields
  | [], op, v => tree.put (.text op.token) v
  | name :: rest, op, v => tree.put (.text name) (.map (write (branch tree name) rest op v))

/-- One bracketed condition: its place, operator and operand. -/
structure Bracketed where
  path : List String
  operator : Operator
  operand : Value

def Bracketed.writeTo (tree : Fields) (b : Bracketed) : Fields := write tree b.path b.operator b.operand

/-- The text that a query key is. -/
def keyText : Value → Except Failure String
  | .bytes _ => .error .bytesStart
  | v => match v.text? with
    | some s => .ok s
    | none => .error (.noMember v.kind "startswith")

/-- The bracketed condition of a query pair, if its key is one under the label. -/
def bracketed? (label : String) (pair : Value × Value) : Except Failure (Option Bracketed) := do
  match BracketKey.read? label (← keyText pair.1) with
  | none => return none
  | some path =>
    let (op, operand) := Operand.splitOperator (← pair.2.display)
    return some ⟨path, op, ← Operand.coerce op operand⟩

def ofBrackets (label : String) (pairs : List (Value × Value)) : Except Failure Fields := do
  let found ← pairs.mapM (bracketed? label)
  return (found.filterMap id).foldl Bracketed.writeTo []

end Listing.FilterTree
