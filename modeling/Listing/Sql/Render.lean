import Listing.Sql.Compile

/-!
# Statement texts

The text of a clause and of the statement that selects by it. Values are bound in the order of their
question marks. Within a conjunction or disjunction, a disjunction or a test for related rows stands in
parentheses.
-/

namespace Listing.Sql

def Term.render : Term → String
  | column c => c.path
  | multiple c _ => c.path ++ " * ?"

/-- A text as an argument of the lower-case function. -/
def lowerCall (lowered : Bool) (s : String) : String := if lowered then "lower(" ++ s ++ ")" else s

/-- The text of a pattern with a bound part. -/
def Place.render (lowered : Bool) : Place → String
  | anywhere => "'%' || " ++ lowerCall lowered "?" ++ " || '%'"
  | start => lowerCall lowered "?" ++ " || '%'"
  | finish => "'%' || " ++ lowerCall lowered "?"

/-- The text of a row of bound values; an empty one is a selection of nothing. -/
def renderBounds (bounds : List Bind) : String :=
  if bounds.isEmpty then "(SELECT 1 FROM (SELECT 1) WHERE 1!=1)"
  else "(" ++ ", ".intercalate (bounds.map fun _ => "?") ++ ")"

/-- The text of the link of a relation: the identifying column first. -/
def Relation.link (r : Relation) : String :=
  let own := r.table ++ "." ++ r.key
  let other := r.targetTable ++ "." ++ r.targetKey
  if r.many then own ++ " = " ++ other else other ++ " = " ++ own

namespace Clause

/-- Whether a clause stands in parentheses as one part of several. -/
def isGrouped : Clause → Bool
  | related .. | any _ => true
  | _ => false

def grouped (inParentheses : Bool) (s : String) : String :=
  if inParentheses then "(" ++ s ++ ")" else s

mutual

def render : Clause → String
  | constant b => if b then "1 = 1" else "0 = 1"
  | compare lowered t sign _ => lowerCall lowered t.render ++ " " ++ sign.symbol ++ " ?"
  | truth t equal b => t.render ++ (if equal then " = " else " != ") ++ (if b then "1" else "0")
  | null t isNull => t.render ++ (if isNull then " IS NULL" else " IS NOT NULL")
  | member t among bounds =>
    if among then t.render ++ " IN " ++ renderBounds bounds
    else "(" ++ t.render ++ " NOT IN " ++ renderBounds bounds ++ ")"
  | like lowered t place _ =>
    "(" ++ lowerCall lowered t.render ++ " LIKE " ++ place.render lowered ++ " ESCAPE '/')"
  | related r inner =>
    "EXISTS (SELECT 1 FROM " ++ r.targetTable ++ " WHERE " ++ r.link ++ " AND " ++
      grouped inner.isGrouped inner.render ++ ")"
  | not c =>
    match c with
    | like lowered t place text => "NOT " ++ render (like lowered t place text)
    | c => "NOT (" ++ render c ++ ")"
  | all cs => " AND ".intercalate (renderAll cs)
  | any cs => " OR ".intercalate (renderAll cs)
termination_by structural c => c

def renderAll : List Clause → List String
  | [] => []
  | c :: cs => grouped c.isGrouped c.render :: renderAll cs
termination_by structural cs => cs

end
end Clause

/-- A statement with the values bound to it. -/
structure Statement where
  text : String
  binds : List Bind

def selectKeys (m : Model) : String :=
  "SELECT " ++ m.table ++ "." ++ Model.keyName ++ " FROM " ++ m.table

def Statement.ofClause (m : Model) (c : Clause) : Statement :=
  ⟨selectKeys m ++ " WHERE " ++ c.render, c.binds⟩

def Statement.ofOrder (m : Model) (order : List SortTerm) : Statement :=
  let one (o : SortTerm) := o.term.render ++ (if o.falling then " DESC" else " ASC")
  ⟨selectKeys m ++ (if order.isEmpty then "" else " ORDER BY " ++ ", ".intercalate (order.map one)),
    order.flatMap fun o => Clause.termBinds o.term⟩

end Listing.Sql
