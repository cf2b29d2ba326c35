import Listing.Sql.Cell

/-!
# Schemas

The models of a database: each stands for a table with typed columns, numbers computed from a column,
and relations to other models over a foreign key.
-/

namespace Listing.Sql

/-- A column: its name on the model, its name in the table, and its type. -/
structure Column where
  table : String
  name : String
  stored : String
  type : ColumnType
deriving DecidableEq, Inhabited

/-- The name of a column in a statement. -/
def Column.path (c : Column) : String := c.table ++ "." ++ c.stored

/-- What a condition tests: a column, or a multiple of it. -/
inductive Term where
  | column (c : Column)
  | multiple (c : Column) (factor : Int)
deriving DecidableEq

namespace Term

/-- The type towards which a term draws what it is compared with; a multiple draws nothing. -/
def draws : Term → Option ColumnType
  | column c => some c.type
  | multiple .. => none

def type : Term → ColumnType
  | column c | multiple c _ => c.type

end Term

/-- A multiple of a column under a name of its own. -/
structure Computed where
  name : String
  column : Column
  factor : Int
deriving DecidableEq

/-- The relation of a model to another. The row of one side holds the key of the other. -/
structure Relation where
  name : String
  /-- The name of the model that is related to. -/
  target : String
  table : String
  key : String
  targetTable : String
  targetKey : String
  /-- Whether there may be several related rows, each of which holds the key of this side. -/
  many : Bool
deriving DecidableEq

structure Model where
  name : String
  table : String
  columns : List Column
  computed : List Computed := []
  relations : List Relation := []
  /-- Other names of columns, under which a column can only be selected. -/
  synonyms : List (String × String) := []
  /-- Members of a model that hold no data. -/
  members : List String := []
deriving DecidableEq

/-- The models of a database. -/
abbrev Schema := List Model

def Schema.model? (s : Schema) (name : String) : Option Model := s.find? (·.name == name)

namespace Model

/-- The column that all models identify their rows by. -/
def keyName : String := "id"

def column? (m : Model) (name : String) : Option Column := m.columns.find? (·.name == name)

def relation? (m : Model) (name : String) : Option Relation := m.relations.find? (·.name == name)

/-- The term of a name: a column, or a number computed from one. -/
def term? (m : Model) (name : String) : Option Term :=
  match m.column? name with
  | some c => some (.column c)
  | none => (m.computed.find? (·.name == name)).map fun f => .multiple f.column f.factor

/-- The failure of a key that names no field of the model. -/
def unsupported (m : Model) (k : Key) : Failure := .unsupportedPredicate k m.name

def term (m : Model) (k : Key) : Except Failure Term :=
  match k.name?.bind m.term? with
  | some t => .ok t
  | none => .error (m.unsupported k)

end Model

/-- A row: the cells under the names of their columns. -/
abbrev Row := String → Cell

/-- A database: the rows of each table, in the order of their keys. -/
abbrev Database := String → List Row

/-- The rows of a database that a row is related to. -/
def Relation.related (r : Relation) (db : Database) (row : Row) : List Row :=
  (db r.targetTable).filter fun other => (other r.targetKey).compare? (row r.key) == some .eq

/-- The cell of a term in a row. -/
def Term.cell (row : Row) : Term → Cell
  | column c => row c.stored
  | multiple c factor => (row c.stored).times factor

end Listing.Sql
