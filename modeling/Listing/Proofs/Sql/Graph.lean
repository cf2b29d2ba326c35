import Listing.Proofs.Sql.Comparison
import Listing.Sql.Store

/-!
# Rows as a graph of objects

The rows of a database seen as objects: an attribute for each column, and for each relation the object
of the related row, null or the list of such objects. The graph may have cycles, so it is unfolded to a
depth; a predicate sees no further than it is deep.
-/

namespace Listing.Sql

open Outcome Predicate

/-! ## Schemas and contents -/

/-- What a schema keeps to. -/
structure Schema.Sound (schema : Schema) : Prop where
  /-- Each model has the column that identifies its rows. -/
  key : ∀ m ∈ schema, ∃ c, m.column? Model.keyName = some c
  /-- No name stands both for a column and for a relation. -/
  distinct : ∀ m ∈ schema, ∀ r ∈ m.relations, m.column? r.name = none
  /-- No column is named like a native key. -/
  column : ∀ m ∈ schema, ∀ c ∈ m.columns, NativeKey.ofName? c.name = none
  /-- No relation is named like a native key. -/
  relation : ∀ m ∈ schema, ∀ r ∈ m.relations, NativeKey.ofName? r.name = none
  /-- A relation leads to the table of the model that it names. -/
  table : ∀ m ∈ schema, ∀ r ∈ m.relations, ∀ target, schema.model? r.target = some target →
    r.targetTable = target.table

structure Database.Sound (db : Database) (schema : Schema) : Prop where
  /-- Each cell has the type of its column, or is null. -/
  typed : ∀ m ∈ schema, ∀ row ∈ db m.table, ∀ c ∈ m.columns, c.type.Holds (row c.stored)
  /-- A foreign key leads to one row at most. -/
  single : ∀ m ∈ schema, ∀ row ∈ db m.table, ∀ r ∈ m.relations, r.many = false →
    (r.related db row).length ≤ 1

theorem Schema.mem_of_model? {schema : Schema} {name : String} {m : Model}
    (h : schema.model? name = some m) : m ∈ schema :=
  List.mem_of_find?_eq_some h

theorem Model.mem_of_column? {m : Model} {name : String} {c : Column} (h : m.column? name = some c) :
    c ∈ m.columns ∧ c.name = name := by
  have hname := List.find?_some h
  exact ⟨List.mem_of_find?_eq_some h, beq_iff_eq.mp hname⟩

theorem Model.mem_of_relation? {m : Model} {name : String} {r : Relation}
    (h : m.relation? name = some r) : r ∈ m.relations ∧ r.name = name := by
  have hname := List.find?_some h
  exact ⟨List.mem_of_find?_eq_some h, beq_iff_eq.mp hname⟩

/-! ## Objects -/

/-- What the attribute of a relation holds: a list of objects, or one object or null. -/
def linked (r : Relation) (objects : List Value) : Value :=
  if r.many then .list objects else objects.head?.getD .none

section

variable (schema : Schema) (db : Database) (identity : Model → Row → Nat)

/-- A row as an object that leads to the objects of related rows, to a depth. -/
def graph : Nat → Model → Row → Value
  | 0, m, row => .object (identity m row) (columnsOf m.columns row)
  | n + 1, m, row =>
    .object (identity m row) (columnsOf m.columns row ++ m.relations.map fun r =>
      (.text r.name, linked r ((schema.model? r.target).elim [] fun target =>
        (r.related db row).map (graph n target))))

variable {schema db identity} {m : Model} {k : Key} {name : String}

theorem exists_object (n : Nat) (m : Model) (row : Row) :
    ∃ i attributes, graph schema db identity n m row = .object i attributes := by
  cases n with
  | zero => exact ⟨_, _, rfl⟩
  | succ n => exact ⟨_, _, rfl⟩

theorem get_object (hk : k.name? = some name) (i : Nat) (attributes : Fields) :
    (Value.object i attributes).get k = .ok ((attributes.find name).getD .none) := by
  rw [Value.get, hk, Entries.get?_of_name hk]
  rfl

theorem find_columnsOf (columns : List Column) (row : Row) (name : String) :
    (columnsOf columns row).find name =
      (columns.find? (·.name == name)).map fun c => (row c.stored).toValue :=
  Entries.find_map columns Column.name _ name

theorem get_graph_column (hk : k.name? = some name) {c : Column} (hc : m.column? name = some c)
    (n : Nat) (row : Row) :
    (graph schema db identity n m row).get k = .ok (row c.stored).toValue := by
  have hfind : (columnsOf m.columns row).find name = some (row c.stored).toValue := by
    rw [find_columnsOf]
    exact congrArg (Option.map _) hc
  cases n with
  | zero => rw [graph, get_object hk, hfind, Option.getD_some]
  | succ n => rw [graph, get_object hk, Entries.find_append, hfind, Option.some_or, Option.getD_some]

theorem get_graph_relation (hk : k.name? = some name) (hc : m.column? name = none) {r : Relation}
    (hr : m.relation? name = some r) {target : Model} (htarget : schema.model? r.target = some target)
    (n : Nat) (row : Row) :
    (graph schema db identity (n + 1) m row).get k =
      .ok (linked r ((r.related db row).map (graph schema db identity n target))) := by
  have hcolumn : (columnsOf m.columns row).find name = none := by
    rw [find_columnsOf]
    exact congrArg (Option.map _) hc
  rw [graph, get_object hk, Entries.find_append, hcolumn, Option.none_or, Entries.find_map]
  rw [Model.relation?] at hr
  rw [hr, Option.map_some, Option.getD_some, htarget]
  rfl

/-! ## Predicates on what a relation leads to -/

theorem anyOf_map {α β : Type} {test : α → Except Failure Bool} {object : β → α} {answer : β → Bool}
    {xs : List β} (h : ∀ x ∈ xs, test (object x) = .ok (answer x)) :
    anyOf test (xs.map object) = .ok (xs.any answer) := by
  induction xs with
  | nil => rfl
  | cons x xs ih =>
    obtain ⟨hx, hxs⟩ := List.forall_mem_cons.mp h
    rw [List.map_cons, anyOf, hx, List.any_cons]
    cases answer x with
    | false => exact ih hxs
    | true => rfl

theorem entryHolds_of_get {record a : Value} {es : Fields} (hk : junction? k = none)
    (hget : record.get k = .ok a) (hes : isNativeCondition es = false) :
    entryHolds record k (.map es) =
      if isNull a then .ok false
      else match items? a with
        | some xs => anyOf (fun x => holds x es) xs
        | none =>
          if isScalar a then throw (.unsupportedPredicate (foreignKey es) "InMemoryStore")
          else holds a es := by
  rw [entryHolds, hk]
  dsimp only
  rw [hget, hes]
  rfl

/-- A predicate on what a relation leads to holds if it does of one of the objects there. -/
theorem entryHolds_linked {record : Value} {r : Relation} {rows : List Row} {object : Row → Value}
    {es : Fields} {answer : Row → Bool} (hk : junction? k = none)
    (hget : record.get k = .ok (linked r (rows.map object)))
    (hobject : ∀ row, ∃ i attributes, object row = .object i attributes)
    (hrows : r.many = false → rows.length ≤ 1) (hes : isNativeCondition es = false)
    (hholds : ∀ row ∈ rows, holds (object row) es = .ok (answer row)) :
    entryHolds record k (.map es) = .ok (rows.any answer) := by
  rw [entryHolds_of_get hk hget hes, linked]
  cases hmany : r.many with
  | true => exact anyOf_map hholds
  | false =>
    match rows, hrows hmany, hholds with
    | [], _, _ => rfl
    | [row], _, hholds =>
      obtain ⟨i, attributes, hrow⟩ := hobject row
      have hanswer := hholds row List.mem_cons_self
      rw [hrow] at hanswer
      have hlinked : (if false = true then Value.list ([row].map object)
          else ([row].map object).head?.getD .none) = .object i attributes := hrow
      rw [hlinked, List.any_cons, List.any_nil, Bool.or_false]
      exact hanswer

end
end Listing.Sql
