import Listing.Proofs.Sql.Native
import Listing.Proofs.Sql.Stores

/-!
# Negation over a database

A negated clause asks for the opposite, but in three values: a row on which null leaves the clause open is
selected neither by the clause nor by its negation. So a negation selects the rows that what it negates does
not select, save those left open, and the counts of the two fall short of all rows by the number of these. A
row on which no test meets null is not left open; what related rows hold never leaves one open.
-/

namespace Listing.Sql

open Outcome Predicate

/-! ## Open questions -/

namespace Clause

/-- Whether null leaves a clause open on a row: it is neither true nor false. -/
def leavesOpen (db : Database) (c : Clause) (row : Row) : Bool := truthOf db row c == none

mutual

/-- Whether a test of a clause meets null on a row, be it in the row or among what is bound. The tests on
related rows do not count. -/
def meetsNull (row : Row) : Clause → Bool
  | constant _ => false
  | compare _ t _ bound => (t.cell row).isNull || bound.cellOrNull.isNull
  | truth t _ _ => (t.cell row).isNull
  | null _ _ => false
  | member t _ bounds => bounds.any fun b => (t.cell row).isNull || b.cellOrNull.isNull
  | like _ t _ _ => (t.cell row).isNull
  | related _ _ => false
  | not c => meetsNull row c
  | all cs => anyMeetsNull row cs
  | any cs => anyMeetsNull row cs
termination_by structural c => c

def anyMeetsNull (row : Row) : List Clause → Bool
  | [] => false
  | c :: cs => meetsNull row c || anyMeetsNull row cs
termination_by structural cs => cs

end

theorem isNull_numberOfText? {s : String} {c : Cell} (h : Cell.numberOfText? s = some c) :
    c.isNull = false := by
  unfold Cell.numberOfText? at h
  dsimp only at h
  split at h
  · split at h
    · split at h
      · obtain rfl := Option.some.inj h
        rfl
      · obtain rfl := Option.some.inj h
        rfl
    · cases h
  · cases h

theorem isNull_drawn (t : Option ColumnType) (c : Cell) : (c.drawn t).isNull = c.isNull := by
  have htext : ∀ s, ((Cell.numberOfText? s).getD (.text s)).isNull = false := by
    intro s
    cases hnumber : Cell.numberOfText? s with
    | none => rfl
    | some d => exact isNull_numberOfText? hnumber
  unfold Cell.drawn
  split
  · exact htext _
  · exact htext _
  · rfl
  · rfl
  · rfl

theorem isNull_lower (c : Cell) : c.lower.isNull = c.isNull := by
  cases c <;> rfl

theorem compareCells_eq_none {sign : Sign} {a b : Cell} :
    compareCells sign a b = none ↔ (a.isNull || b.isNull) = true := by
  rw [compareCells, Option.map_eq_none_iff, Cell.compare?]
  split
  · next h => exact iff_of_true rfl h
  · next h => exact iff_of_false (by simp) h

theorem null_of_memberOf {a : Cell} {bs : List Cell} (h : memberOf a bs = none) :
    (bs.any fun b => a.isNull || b.isNull) = true := by
  induction bs with
  | nil => cases h
  | cons b bs ih =>
    rw [List.any_cons, Bool.or_eq_true]
    -- an open disjunction has an open side
    rcases Truth.or_eq_none h with hfirst | hrest
    · exact .inl (compareCells_eq_none.mp hfirst)
    · exact .inr (ih hrest)

theorem null_of_member {t : Term} {among : Bool} {bounds : List Bind} {db : Database} {row : Row}
    (h : truthOf db row (member t among bounds) = none) :
    (bounds.any fun b => (t.cell row).isNull || b.cellOrNull.isNull) = true := by
  have hopen : memberOf (t.cell row) (bounds.map fun b => b.cellOrNull.drawn t.draws) = none := by
    cases among with
    | true => exact h
    | false => exact Truth.not_eq_none.mp h
  have hnull := null_of_memberOf hopen
  rw [List.any_map] at hnull
  simpa only [Function.comp_def, isNull_drawn] using hnull

mutual

/-- Only null leaves a clause open. -/
theorem meetsNull_of_open {db : Database} {row : Row} : ∀ c,
    truthOf db row c = none → meetsNull row c = true
  | constant _, h | null _ _, h | related _ _, h => nomatch h
  | compare lowered t sign bound, h => by
    cases lowered with
    | true =>
      have hnull := compareCells_eq_none.mp h
      rwa [isNull_lower] at hnull
    | false =>
      have hnull := compareCells_eq_none.mp h
      rwa [isNull_drawn] at hnull
  | truth t equal b, h => by
    have hnull := compareCells_eq_none.mp h
    rw [isNull_drawn] at hnull
    exact (Bool.or_false _).symm.trans hnull
  | member t among bounds, h => null_of_member h
  | like lowered t place text, h => by
    have htext : (t.cell row).text? = none := Option.map_eq_none_iff.mp h
    rw [meetsNull]
    cases hcell : t.cell row with
    | null => rfl
    | _ =>
      rw [hcell] at htext
      cases htext
  | not c, h => meetsNull_of_open c (Truth.not_eq_none.mp h)
  | all cs, h => anyMeetsNull_of_all_open cs h
  | any cs, h => anyMeetsNull_of_any_open cs h

theorem anyMeetsNull_of_all_open {db : Database} {row : Row} : ∀ cs,
    allTruth db row cs = none → anyMeetsNull row cs = true
  | [], h => nomatch h
  | c :: cs, h => by
    rw [anyMeetsNull, Bool.or_eq_true]
    rcases Truth.and_eq_none h with hc | hcs
    · exact .inl (meetsNull_of_open c hc)
    · exact .inr (anyMeetsNull_of_all_open cs hcs)

theorem anyMeetsNull_of_any_open {db : Database} {row : Row} : ∀ cs,
    anyTruth db row cs = none → anyMeetsNull row cs = true
  | [], h => nomatch h
  | c :: cs, h => by
    rw [anyMeetsNull, Bool.or_eq_true]
    rcases Truth.or_eq_none h with hc | hcs
    · exact .inl (meetsNull_of_open c hc)
    · exact .inr (anyMeetsNull_of_any_open cs hcs)

end

/-! ## Clauses and their negations -/

/-- One clause asks for the opposite of another: it binds the same values and has the opposite truth. -/
structure Denies (d c : Clause) : Prop where
  binds : d.binds = c.binds
  truthOf : ∀ db row, d.truthOf db row = (c.truthOf db row).not

theorem denies_negate (c : Clause) : (conjunction [c.negate]).Denies c where
  binds := by
    cases c with
    | constant b => cases b <;> rfl
    | not c => cases c <;> rfl
    | _ => rfl
  truthOf db row := by
    rw [truthOf_conjunction, List.map_singleton, Truth.all_cons, Truth.all_nil, Truth.and_true,
      truthOf_negate]

section

variable {db : Database} {row : Row} {c d : Clause}

theorem leavesOpen_eq_false_of_meetsNull (h : c.meetsNull row = false) :
    c.leavesOpen db row = false := by
  rw [leavesOpen, beq_eq_false_iff_ne]
  intro hopen
  rw [meetsNull_of_open c hopen] at h
  cases h

theorem Denies.selects_iff (h : d.Denies c) :
    d.selects db row = true ↔ c.selects db row = false ∧ c.leavesOpen db row = false := by
  rw [selects, beq_iff_eq, h.truthOf, Truth.not_eq_true, Truth.eq_false_iff, selects, leavesOpen]

theorem Denies.length_rows (h : d.Denies c) (rows : List Row) :
    (rows.filter (c.selects db)).length + (rows.filter (d.selects db)).length +
      (rows.filter (c.leavesOpen db)).length = rows.length := by
  induction rows with
  | nil => rfl
  | cons row rows ih =>
    -- the row is counted once among the three
    have hone : (c.selects db row).toNat + (d.selects db row).toNat + (c.leavesOpen db row).toNat = 1 := by
      rw [selects, selects, leavesOpen, h.truthOf]
      rcases c.truthOf db row with _ | _ | _ <;> rfl
    have hcons : ∀ p : Row → Bool,
        ((row :: rows).filter p).length = (p row).toNat + (rows.filter p).length := by
      intro p
      rw [← List.countP_eq_length_filter, ← List.countP_eq_length_filter, List.countP_cons]
      cases p row <;> simp [Nat.add_comm]
    rw [hcons, hcons, hcons, List.length_cons, ← ih]
    omega

theorem leavesOpen_disjunction (cs : List Clause) : leavesOpen db (disjunction cs) row = true ↔
    (∀ c ∈ cs, selects db c row = false) ∧ ∃ c ∈ cs, leavesOpen db c row = true := by
  rw [leavesOpen, beq_iff_eq, truthOf_disjunction, Truth.any_eq_none]
  simp [selects, leavesOpen]

end
end Clause

/-! ## Negated predicates -/

/-- The predicate that joins some predicates in one way. -/
def joinBy (j : Junction) (ps : List Value) : Value := Value.single j.key (.list ps)

section

variable {schema : Schema} {registry : Registry} {m : Model}

theorem compile_joinBy (j : Junction) {ps : List Value} {cs : List Clause}
    (h : ps.mapM (compile schema registry m) = .ok cs) :
    compile schema registry m (joinBy j ps) = .ok (Clause.conjunction [joined j cs]) := by
  have hkey := junction?_key j
  rw [joinBy, Value.single, compile, predicateClause, predicateParts,
    predicatePart_junction schema registry m hkey, predicateAll_eq_mapM, h]
  rfl

theorem compileCondition_not (t : Term) {es : Fields} {parts : List Conjunct}
    (h : conditionParts registry m t (isInsensitive es) es = .ok parts) :
    compileCondition registry m t [(.text NativeKey.not.name, .map es)] =
      .ok (Clause.conjunction [(Clause.conjunction parts).negate]) := by
  have hpart : conditionPart registry m t (isInsensitive [(.text NativeKey.not.name, .map es)])
      (.text NativeKey.not.name) (.map es) = .ok (Clause.conjunction parts).negate := by
    rw [conditionPart, if_pos (by rfl), h]
    rfl
  rw [compileCondition, conditionParts, hpart]
  rfl

theorem compile_field_not {k : Key} (hk : junction? k = none) (hrelation : k.name?.bind m.relation? = none)
    {es : Fields} {c : Clause} (h : compile schema registry m (.map [(k, .map es)]) = .ok c) :
    compile schema registry m (.map [(k, Value.single NativeKey.not.name (.map es))]) =
      .ok (Clause.conjunction [c.negate]) := by
  rw [compile, predicateClause, predicateParts] at h
  obtain ⟨parts, hparts, hc⟩ := bind_eq_ok.mp h
  obtain ⟨part, hpart, hrest⟩ := bind_eq_ok.mp hparts
  rw [← pure_eq_ok.mp hrest] at hc
  cases hterm : k.name?.bind m.term? with
  | none =>
    rw [predicatePart, hk, hrelation, Model.term, hterm] at hpart
    cases hpart
  | some t =>
    rw [predicatePart_term hk hrelation hterm] at hpart
    split at hpart
    · -- the only part of the predicate is the clause of the condition
      obtain ⟨d, hd, hpart⟩ := bind_eq_ok.mp hpart
      obtain ⟨tests, htests, hd⟩ := bind_eq_ok.mp hd
      obtain rfl := pure_eq_ok.mp hpart
      obtain rfl := pure_eq_ok.mp hd
      obtain rfl := pure_eq_ok.mp hc
      rw [Value.single, compile, predicateClause, predicateParts,
        predicatePart_term hk hrelation hterm, if_pos (by rfl), compileCondition_not t htests]
      rfl
    · cases hpart

end

/-! ## Counts -/

theorem count_everything {s : Store} {db : Database} (hdb : s.database = .ok db) :
    s.count (.map []) = .ok (db s.model.table).length := by
  have hconstant : compile s.schema s.registry s.model (.map []) = .ok (.constant true) := rfl
  rw [count_eq_ok_iff hdb hconstant]
  refine ⟨rfl, congrArg List.length (List.filter_eq_self.mpr fun _ _ => rfl)⟩

/-- A predicate is the negation of another to a store: it selects the rows that the other does not select,
save those on which null leaves that one open. -/
structure Store.Negates (s : Store) (db : Database) (q p : Value) (c : Clause) : Prop where
  asked : compile s.schema s.registry s.model p = .ok c
  denied : ∃ d, compile s.schema s.registry s.model q = .ok d ∧
    ∀ row, d.selects db row = true ↔ c.selects db row = false ∧ c.leavesOpen db row = false
  counted : (∃ n, s.count q = .ok n) ↔ ∃ n, s.count p = .ok n
  total : ∀ n k, s.count q = .ok n → s.count p = .ok k →
    s.count (.map []) = .ok (n + k + ((db s.model.table).filter (c.leavesOpen db)).length)

theorem Store.negates_of_denies {s : Store} {db : Database} (hdb : s.database = .ok db) {p q : Value}
    {c d : Clause} (hp : compile s.schema s.registry s.model p = .ok c)
    (hq : compile s.schema s.registry s.model q = .ok d) (h : d.Denies c) : s.Negates db q p c where
  asked := hp
  denied := ⟨d, hq, fun _ => h.selects_iff⟩
  counted := by
    simp only [count_eq_ok_iff hdb hp, count_eq_ok_iff hdb hq, h.binds, exists_and_left,
      exists_eq', and_true]
  total n k hn hk := by
    obtain ⟨-, rfl⟩ := (count_eq_ok_iff hdb hq).mp hn
    obtain ⟨-, rfl⟩ := (count_eq_ok_iff hdb hp).mp hk
    rw [count_everything hdb, ← h.length_rows (db s.model.table)]
    congr 2
    exact Nat.add_comm _ _

section

variable (s : Store) (db : Database)

/-- **Negation over a database.** The negation of some predicates selects the rows that none of them
selects, and the negation of a condition the rows that the condition does not select, save the rows that
null leaves open; these are what the counts lack. A row on which no test meets null is not left open. -/
theorem negation_selects (hdb : s.database = .ok db) :
    (∀ ps, (∀ p ∈ ps, ∃ c, compile s.schema s.registry s.model p = .ok c) →
      ∃ cs, ps.mapM (compile s.schema s.registry s.model) = .ok cs ∧
        ∃ c, s.Negates db (joinBy .none ps) (joinBy .any ps) c ∧
          (∀ row, c.selects db row = true ↔ ∃ e ∈ cs, e.selects db row = true) ∧
          ∀ row, c.leavesOpen db row = true ↔
            (∀ e ∈ cs, e.selects db row = false) ∧ ∃ e ∈ cs, e.leavesOpen db row = true) ∧
    (∀ k es c, junction? k = none → k.name?.bind s.model.relation? = none →
      compile s.schema s.registry s.model (.map [(k, .map es)]) = .ok c →
      s.Negates db (.map [(k, Value.single NativeKey.not.name (.map es))]) (.map [(k, .map es)]) c) ∧
    ∀ (c : Clause) row, c.meetsNull row = false → c.leavesOpen db row = false := by
  refine ⟨fun ps hps => ?_, fun k es c hk hrelation hc => ?_, fun c row h => ?_⟩
  · obtain ⟨cs, hcs⟩ := exists_mapM_eq_ok_iff.mpr hps
    have hany := compile_joinBy .any hcs
    have hnone := compile_joinBy .none hcs
    refine ⟨cs, hcs, Clause.disjunction cs, ?_, fun row => ?_, fun row => ?_⟩
    · exact Store.negates_of_denies hdb hany hnone (Clause.denies_negate _)
    · rw [Clause.selects_disjunction, List.any_eq_true]
    · exact Clause.leavesOpen_disjunction cs
  · have hnot := compile_field_not hk hrelation hc
    exact Store.negates_of_denies hdb hc hnot (Clause.denies_negate c)
  · exact Clause.leavesOpen_eq_false_of_meetsNull h

end

namespace Sample

/-- That the status of a user is a text. -/
def inStatus (status : String) : Value := .map (compared "status" .equals status)

/-- That a user is in the team of a number. -/
def inTeamOf (n : Int) : Value :=
  .map [(.text "team_id", Value.single NativeKey.equals.name (.int n))]

end Sample

open Sample

/-- No user lacks a status, so the users who are not active are all the others. -/
theorem negation_selects_inactive :
    (tables schema database user).database = .ok database ∧
      (∀ p ∈ [inStatus "active"], ∃ c, compile schema .standard user p = .ok c) ∧
      ∃ c, (tables schema database user).Negates database (joinBy .none [inStatus "active"])
          (joinBy .any [inStatus "active"]) c ∧
        ∀ row ∈ users, c.leavesOpen database row = false := by
  have hactive : ∀ p ∈ [inStatus "active"], ∃ c, compile schema .standard user p = .ok c :=
    List.forall_mem_singleton.mpr ⟨_, rfl⟩
  obtain ⟨hjoined, -, hopen⟩ := negation_selects (tables schema database user) database rfl
  obtain ⟨cs, -, c, hnegates, -, -⟩ := hjoined _ hactive
  refine ⟨rfl, hactive, c, hnegates, fun row hrow => hopen c row ?_⟩
  have hclause : c = .compare false (.column (textColumn "users" "status")) .eq
      ⟨.plain, .text "active"⟩ := Except.ok.inj (hnegates.asked.symm.trans rfl)
  have hstatus : ∀ row ∈ users, (row "status").isNull = false := by decide +kernel
  rw [hclause]
  exact (Bool.or_false _).trans (hstatus row hrow)

/-- **The rows left out.** Two of ten users have no team. They are not in team 1, as a store in memory
has it, but the negation does not select them. -/
theorem teamless_left_out :
    (tables schema database user).count (joinBy .none [inTeamOf 1]) = .ok 5 ∧
      (tables schema database user).count (joinBy .any [inTeamOf 1]) = .ok 3 ∧
      (tables schema database user).count (.map []) = .ok 10 ∧
      (objects schema database (fun _ _ => 0) 2 user).count (joinBy .none [inTeamOf 1]) = .ok 7 ∧
      (tables schema database user).count (.map [(.text "team_id", Value.single NativeKey.not.name
        (Value.single NativeKey.equals.name (.int 1)))]) = .ok 5 := by
  exact ⟨rfl, rfl, rfl, rfl, rfl⟩

end Listing.Sql
