import Listing.Proofs.Sql.Stores

/-!
# Conditions of one test

A condition that tests a column with one native key, with or without regard to case. Its clause is true
of the rows of which the clause of the operator is, and a record in memory satisfies it if its value
passes the test.
-/

namespace Listing

open Outcome Predicate

/-! ## The condition -/

/-- The condition of one test, with the mode that disregards case where that is asked for. -/
def testing (key : NativeKey) (v : Value) (insensitive : Bool) : Fields :=
  (.text key.name, v) :: if insensitive then [(.text NativeKey.mode.name, .text "insensitive")] else []

variable {key : NativeKey} {v : Value} {insensitive : Bool} {k : Key}

theorem nativeKey?_name (key : NativeKey) : nativeKey? (.text key.name) = some key :=
  nativeKey?_eq_some.mpr rfl

theorem isNativeCondition_testing (key : NativeKey) (v : Value) (insensitive : Bool) :
    isNativeCondition (testing key v insensitive) = true := by
  have hnative : isNativeKey (.text key.name) = true := by
    rw [isNativeKey, nativeKey?_name]
    rfl
  cases insensitive with
  | false => simp [isNativeCondition, testing, hnative]
  | true =>
    simp only [isNativeCondition, testing, List.all_cons, hnative]
    rfl

theorem isInsensitive_testing (hmode : key ≠ .mode) :
    isInsensitive (testing key v insensitive) = insensitive := by
  cases key with
  | mode => exact absurd rfl hmode
  | _ => cases insensitive <;> rfl

/-! ## In memory -/

theorem valueHolds_testing {record a : Value} (hk : junction? k = none) (hget : record.get k = .ok a)
    (hmode : key ≠ .mode) (hv : v.fields? = none) :
    valueHolds record (.map [(k, .map (testing key v insensitive))]) = test insensitive a key v := by
  have hpasses : satisfies a (testing key v insensitive) = test insensitive a key v := by
    rw [satisfies, isInsensitive_testing hmode, testing, passes, nativeKey?_name]
    dsimp only
    rw [Sql.passesEntry_of_operand hv]
    cases test insensitive a key v with
    | error _ => rfl
    | ok b => cases b <;> cases insensitive <;> rfl
  rw [valueHolds, holds, entryHolds, hk]
  dsimp only
  rw [hget, isNativeCondition_testing]
  dsimp only [bind, Except.bind]
  rw [if_pos rfl, hpasses]
  cases test insensitive a key v with
  | error _ => rfl
  | ok b => cases b <;> rfl

namespace Sql

/-! ## Over a database -/

section

variable {schema : Schema} {m : Model} {col : Column} {c : Clause}

theorem compile_testing (hschema : schema.Sound) (hm : m ∈ schema) (hk : junction? k = none)
    (hcol : k.name?.bind m.column? = some col) (hmode : key ≠ .mode) (hv : v.fields? = none)
    (hc : NativeOperator.standardApply key (.column col) v insensitive = .ok c)
    (hstorable : c.Storable) :
    ∃ clause, compile schema .standard m (.map [(k, .map (testing key v insensitive))]) = .ok clause ∧
      clause.Storable ∧ ∀ db row, clause.selects db row = c.selects db row := by
  have hpart : conditionPart .standard m (.column col) insensitive (.text key.name) v =
      .ok (.clause c) := by
    rw [conditionPart_of_operand hv, applyOperator_standard rfl hmode, hc]
    rfl
  have hrest : conditionParts .standard m (.column col) insensitive
      (if insensitive then [(.text NativeKey.mode.name, .text "insensitive")] else []) = .ok [] := by
    cases insensitive <;> rfl
  have hcondition : compileCondition .standard m (.column col) (testing key v insensitive) =
      .ok (Clause.conjunction [.clause c]) := by
    rw [compileCondition, isInsensitive_testing hmode, testing,
      conditionParts_cons (nativeKey?_name key) hmode hpart hrest]
    rfl
  have hcompile : compile schema .standard m (.map [(k, .map (testing key v insensitive))]) =
      .ok (Clause.conjunction [.clause (Clause.conjunction [.clause c])]) := by
    rw [compile, predicateClause, predicateParts,
      predicatePart_column hschema hm hk hcol (isNativeCondition_testing key v insensitive), hcondition]
    rfl
  refine ⟨_, hcompile, Clause.storable_conjunction (List.forall_mem_singleton.mpr
    (Clause.storable_conjunction (List.forall_mem_singleton.mpr hstorable))), fun db row => ?_⟩
  simp only [Clause.selects, Clause.truthOf_conjunction, List.map_singleton, Conjunct.truthOf,
    Truth.all_cons, Truth.all_nil, Truth.and_true]

end

/-! ## What the stores select -/

section

variable (schema : Schema) (db : Database) (identity : Model → Row → Nat) (n : Nat) (m : Model)

/-- Whether a database can be asked for a predicate and selects exactly the rows that a test keeps. -/
def TablesSelect (es : Fields) (keep : Row → Bool) : Prop :=
  ∃ clause, compile schema .standard m (.map es) = .ok clause ∧ clause.Storable ∧
    ∀ row ∈ db m.table, clause.selects db row = keep row

/-- Whether the store in memory selects exactly the objects of the rows that a test keeps. -/
def ObjectsSelect (es : Fields) (keep : Row → Bool) : Prop :=
  ∀ row ∈ db m.table, valueHolds (graph schema db identity n m row) (.map es) = .ok (keep row)

end

section

variable {schema : Schema} {db : Database} {identity : Model → Row → Nat} {n : Nat} {m : Model}
  {es : Fields} {keep keep' : Row → Bool}

theorem TablesSelect.iff_of (h : TablesSelect schema db m es keep) :
    TablesSelect schema db m es keep' ↔ ∀ row ∈ db m.table, keep row = keep' row := by
  obtain ⟨clause, hclause, hstorable, hselects⟩ := h
  constructor
  · rintro ⟨clause', hclause', -, hselects'⟩ row hrow
    obtain rfl := Except.ok.inj (hclause.symm.trans hclause')
    rw [← hselects row hrow, hselects' row hrow]
  · intro hkeep
    exact ⟨clause, hclause, hstorable, fun row hrow => (hselects row hrow).trans (hkeep row hrow)⟩

theorem ObjectsSelect.iff_of (h : ObjectsSelect schema db identity n m es keep) :
    ObjectsSelect schema db identity n m es keep' ↔ ∀ row ∈ db m.table, keep row = keep' row := by
  constructor
  · intro h' row hrow
    exact Except.ok.inj ((h row hrow).symm.trans (h' row hrow))
  · intro hkeep row hrow
    rw [h row hrow, hkeep row hrow]

theorem TablesSelect.agree_of_objects (hschema : schema.Sound) (hm : m ∈ schema)
    (h : TablesSelect schema db m es keep) (h' : ObjectsSelect schema db identity n m es keep) :
    StoresAgree schema db identity n m es := by
  obtain ⟨clause, hclause, hstorable, hselects⟩ := h
  obtain ⟨c, hc⟩ := hschema.key m hm
  refine .of_matching hc hclause hstorable ?_
  rw [List.filter_congr hselects]
  exact matching_map h'

end

end Sql
end Listing
