import Listing.Page.Paginate
import Listing.Sql.Compile
import Listing.Sql.Truth
import Listing.Value.Whole

/-!
# The store over a database

A store of the rows of one model. Counting and fetching compile the predicate into a clause, bind its
values and select the rows of which the clause is true. Fetched records hold the selected columns and
the related rows that are asked for.
-/

namespace Listing.Sql

/-- A store over one model of a database. -/
structure Store where
  schema : Schema
  model : Model
  registry : Registry := .standard
  /-- The database, or why there is none. -/
  database : Except Failure Database

/-! ## Windows -/

/-- The bound of a window; null leaves it open. -/
def bound (v : Value) : Except Failure (Option Int) :=
  match v with
  | .none => .ok none
  | v => some <$> v.whole

/-- The rows of a window. A negative limit is none, a negative offset skips nothing. -/
def window {α : Type} (offset limit : Option Int) (rows : List α) : List α :=
  let rest := rows.drop (offset.getD 0).toNat
  match limit with
  | some n => if n < 0 then rest else rest.take n.toNat
  | none => rest

/-! ## Order -/

/-- The order of two rows by several terms, the first of which is the most significant. -/
def compareRows (order : List SortTerm) (a b : Row) : Ordering :=
  match order with
  | [] => .eq
  | o :: rest =>
    let c := (o.term.cell a).order (o.term.cell b)
    (if o.falling then c.swap else c).then (compareRows rest a b)

/-- Rows in an order; rows that tie stay as they are. -/
def sortRows (order : List SortTerm) (rows : List Row) : List Row :=
  rows.mergeSort fun a b => (compareRows order a b).isLE

/-! ## What is loaded -/

/-- What a name stands for on a model. -/
inductive Member where
  | column (c : Column)
  | relation (r : Relation)
  | other

def Model.member? (m : Model) (name : String) : Option Member :=
  match (m.column? name).or ((m.synonyms.lookup name).bind m.column?) with
  | some c => some (.column c)
  | none =>
    match m.relation? name with
    | some r => some (.relation r)
    | none =>
      if m.members.contains name || m.computed.any (·.name == name) then some .other else none

def Model.member (m : Model) (v : Value) : Except Failure Member :=
  match v.text? with
  | none => .error (.memberNotText v.kind)
  | some name =>
    match (if name.toList.head? = some '_' then none else m.member? name) with
    | some found => .ok found
    | none => .error (.unsupportedPredicate (v.toKey?.toOption.getD (.text name)) m.name)

def optionNames (v : Value) : Except Failure (List Value) :=
  if v.isTrue then
    match v with
    | .map es => .ok ((es.filter fun (_, keep) => keep.isTrue).map fun (k, _) => Value.ofKey k)
    | v => if v.text?.isSome then .ok [v] else v.iterate
  else .ok []

/-- The members that an option names; none of them may be without data. -/
def optionMembers (m : Model) (options : Fields) (name : String) : Except Failure (List Member) := do
  let members ← (← optionNames ((options.find name).getD .none)).mapM m.member
  for found in members do
    match found with
    | .other => throw .unloadable
    | _ => pure ()
  return members

/-- The columns among selected members; a relation cannot be selected. -/
def selectedColumns (members : List Member) : Except Failure (List Column) :=
  members.mapM fun
    | .column c => .ok c
    | _ => .error .mismatchedLoader

/-- The relations among included members; a column cannot be included. -/
def includedRelations (members : List Member) : Except Failure (List Relation) :=
  members.mapM fun
    | .relation r => .ok r
    | _ => .error .mismatchedLoader

/-- The columns to load: the selected ones and the key, or all. -/
def loadedColumns (m : Model) (selected : List Column) : List Column :=
  if selected.isEmpty then m.columns
  else m.columns.filter fun c => c.name == Model.keyName || selected.contains c

def columnsOf (columns : List Column) (row : Row) : Fields :=
  columns.map fun c => (.text c.name, (row c.stored).toValue)

/-- The value of a relation: the record of the related row, or the row of such records. -/
def relatedValue (schema : Schema) (db : Database) (r : Relation) (row : Row) : Value :=
  let columns := ((schema.model? r.target).map (·.columns)).getD []
  let records := (r.related db row).map fun other => Value.map (columnsOf columns other)
  if r.many then .list records else records.head?.getD .none

/-! ## The store -/

namespace Store

def count (s : Store) (predicate : Value) : Except Failure Nat := do
  let clause ← compile s.schema s.registry s.model predicate
  let db ← s.database
  checkBinds clause.binds
  return ((db s.model.table).filter (clause.selects db)).length

/-- The records of the rows that satisfy a predicate, in order and cut to a window. -/
def fetch (s : Store) (predicate order skip take options : Value) : Except Failure (List Value) := do
  let clause ← compile s.schema s.registry s.model predicate
  let terms ← compileOrder s.model order
  let offset ← bound skip
  let limit ← bound take
  let options ← options.fieldsFor "get"
  let selected ← optionMembers s.model options "select"
  let included ← optionMembers s.model options "include"
  let db ← s.database
  let columns ← selectedColumns selected
  let relations ← includedRelations included
  checkBinds (clause.binds ++ terms.flatMap (fun o => Clause.termBinds o.term) ++
    (limit.toList ++ offset.toList).map fun n => ⟨.plain, .int n⟩)
  let rows := sortRows terms ((db s.model.table).filter (clause.selects db))
  return (window offset limit rows).map fun row =>
    .map (columnsOf (loadedColumns s.model columns) row ++
      relations.map fun r => (.text r.name, relatedValue s.schema db r row))

def toPageStore (s : Store) : PageStore (Except Failure) where
  count predicate := do return .int (← s.count (.map predicate))
  fetch f := s.fetch (.map f.predicate) f.orderValue f.skip.toValue f.take.toValue (.map f.options)

end Store
end Listing.Sql
