import Listing.Value.Display
import Listing.Value.Hashing
import Listing.Value.Sorting
import Listing.Value.Vocabulary

/-!
# Declaring a policy

A policy is declared with plain values: a row of operator tokens allows these operators on a field, a
mapping holds the rules of a relation, `true` or `false` allows or denies a sort, and a direction word
forces one. Whatever has none of these shapes is a fault of the declaration.
-/

namespace Listing

/-- The operators that a row of tokens declares. -/
def Operator.declared (field : Option Key) (tokens : List Value) : Except Failure (List Operator) :=
  tokens.mapM fun token =>
    match Operator.ofValueWord? token with
    | some op => .ok op
    | none => do throw (.policy (.unknownOperator (← token.written)) field)

namespace Rule

def ofOperators (ops : List Operator) : Rule := .operators ops.eraseDups

mutual

/-- The rule that a value declares for a field. -/
def declared (field : Key) : Value → Except Failure Rule
  | .rule r => .ok r
  | .policy p => .ok (.nested p.filterable)
  | .map es => do return .nested (← declaredFields es)
  | .list tokens | .tuple tokens | .set tokens =>
    do return ofOperators (← Operator.declared (some field) tokens)
  | v => do throw (.policy (.ruleShape (← v.written)) (some field))
termination_by structural v => v

def declaredFields : List (Key × Value) → Except Failure (List (Key × Rule))
  | [] => .ok []
  | (k, v) :: rest => do
    let r ← declared k v
    return (k, r) :: (← declaredFields rest)
termination_by structural es => es

end

def declaredFilterable (v : Value) : Except Failure (Entries Rule) :=
  match v with
  | .map es => declaredFields es
  | v => .error (.policy (.filterableShape v.kind) none)

end Rule

def SortRule.declared (field : Key) (v : Value) : Except Failure SortRule :=
  match v with
  | .bool b => .ok (.allowed b)
  | v => match Direction.ofValue? v with
    | some d => .ok (.forced d)
    | none => do throw (.policy (.sortRule (← v.written)) (some field))

namespace FieldPolicy

def searchableName (v : Value) : Except Failure String :=
  match v.text? with
  | some s => if s = "" then fault else .ok s
  | none => fault
where
  /-- What is wrong with any other value. -/
  fault : Except Failure String := do throw (.policy (.searchableName (← v.written)) none)

/-- The searchable fields that a value declares, each once. -/
def declaredSearchable (v : Value) : Except Failure (List String) :=
  if v.text?.isSome then .error (.policy .searchableText none)
  else do (← v.members).mapM searchableName

def declaredSortable (v : Value) : Except Failure (Entries SortRule) :=
  match v with
  | .map es => es.mapM fun (k, rule) => do return (k, ← SortRule.declared k rule)
  | v => .error (.policy (.sortableShape v.kind) none)

/-- The policy that three sections declare. -/
def declare (filterable searchable sortable : Value) : Except Failure FieldPolicy := do
  return {
    filterable := ← Rule.declaredFilterable filterable
    searchable := ← declaredSearchable searchable
    sortable := ← declaredSortable sortable }

def sections : List String := ["filterable", "searchable", "sortable"]

/-- The policy that named sections declare; a section left out allows nothing. -/
def ofSections (es : Fields) : Except Failure FieldPolicy :=
  match es.find? fun (k, _) => !sections.any fun name => k.same (.text name) with
  | some (k, _) => .error (.unexpectedArgument "FieldPolicy.__init__" (k.name?.getD ""))
  | none =>
    declare ((es.find "filterable").getD (.map [])) ((es.find "searchable").getD (.tuple []))
      ((es.find "sortable").getD (.map []))

/-- A section of a document; one that is missing or counts as false is empty. -/
def documentSection (es : Fields) (name : String) (empty : Value) : Value :=
  match es.find name with
  | some v => if v.isTrue then v else empty
  | none => empty

/-- Names that are no section, in order, as one text. -/
def unknownSections (names : List Value) : Except Failure (List String) := do
  let sorted ← Value.sort names
  (sorted.zipIdx).mapM fun (v, i) =>
    match v.text? with
    | some s => .ok s
    | none => .error (.joinItem i v.kind)

def ofDocument (document : Value) : Except Failure FieldPolicy := do
  let names ← document.members
  let unknown := names.filter fun v => !sections.any fun name => v.same (.text name)
  if !unknown.isEmpty then throw (.policy (.unknownSections (← unknownSections unknown)) none)
  let es ← document.fieldsFor "get"
  let searchable ← (documentSection es "searchable" (.tuple [])).iterate
  declare (documentSection es "filterable" (.map [])) (.tuple searchable)
    (documentSection es "sortable" (.map []))

end FieldPolicy
end Listing
