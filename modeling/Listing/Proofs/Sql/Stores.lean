import Listing.Proofs.Memory.Rearrangement
import Listing.Proofs.Memory.Window
import Listing.Proofs.Sql.Agreement
import Listing.Sql.Sample

/-!
# The two stores agree on comparisons

The store over a database and the store in memory that holds the same rows as a graph of objects. Asked
for a comparing predicate of which no negated comparison reads a null, the one selects the rows whose
objects the other selects, unless some relation is asked for the empty predicate: that has no clause.
-/

namespace Listing
namespace Sql

open Outcome

/-! ## The stores -/

section

variable (schema : Schema) (db : Database) (identity : Model → Row → Nat)

/-- The store over the rows of a model. -/
def tables (m : Model) : Store := { schema := schema, model := m, database := .ok db }

/-- The store in memory of the objects of these rows. -/
def objects (n : Nat) (m : Model) : MemoryStore :=
  ⟨(db m.table).map (graph schema db identity n m)⟩

end

/-- What a record holds under the name of the column that identifies it. -/
def keyOf (record : Value) : Except Failure Value := record.get (.text Model.keyName)

/-- A row as a mapping of its columns. -/
def record (m : Model) (row : Row) : Value := .map (columnsOf m.columns row)

variable {schema : Schema} {db : Database} {identity : Model → Row → Nat} {n : Nat} {m : Model}
  {es : Fields} {clause : Clause}

theorem matching_map {object : Row → Value} {answer : Row → Bool} {predicate : Value}
    {rows : List Row} (h : ∀ row ∈ rows, Predicate.valueHolds (object row) predicate = .ok (answer row)) :
    MemoryStore.matching predicate (rows.map object) = .ok ((rows.filter answer).map object) := by
  induction rows with
  | nil => rfl
  | cons row rows ih =>
    obtain ⟨hrow, hrows⟩ := List.forall_mem_cons.mp h
    rw [List.map_cons, MemoryStore.matching, hrow, ih hrows, List.filter_cons]
    cases answer row with
    | false => rfl
    | true => rfl

/-- A comparing predicate that asks no relation for the empty predicate has a clause that can be bound
and that selects the rows whose objects match. -/
theorem exists_clause (identity : Model → Row → Nat) (hschema : schema.Sound)
    (hdb : db.Sound schema) (hm : m ∈ schema) (hes : ComparingPredicate schema m es)
    (hdepth : (Value.map es).depth ≤ n)
    (hsettled : ∀ row ∈ db m.table, ∀ x, Reads schema db m row false es x → x.Settled)
    (hasks : ¬ AsksNothing schema m es) :
    ∃ clause, compile schema .standard m (.map es) = .ok clause ∧ clause.Storable ∧
      MemoryStore.matching (.map es) (objects schema db identity n m).records =
        .ok (((db m.table).filter (clause.selects db)).map (graph schema db identity n m)) := by
  obtain ⟨parts, htranslates⟩ : ∃ parts, Translates schema db identity m es parts :=
    exists_translates hschema hdb hes hm hasks
  refine ⟨Clause.conjunction parts, ?_, htranslates.clause, matching_map fun row hrow => ?_⟩
  · rw [compile, predicateClause, htranslates.compiled]
    rfl
  · rw [Value.depth] at hdepth
    obtain ⟨b, hb, hanswers⟩ :=
      htranslates.answers n row hrow false (Nat.le_of_succ_le hdepth) (hsettled row hrow)
    rw [Predicate.valueHolds, hb, Clause.selects, Clause.truthOf_conjunction, hanswers.selects]

/-! ## Counts -/

theorem count_eq_ok_iff {s : Store} (hdb : s.database = .ok db) {p : Value}
    (hclause : compile s.schema s.registry s.model p = .ok clause) {total : Nat} :
    s.count p = .ok total ↔ checkBinds clause.binds = .ok () ∧
      ((db s.model.table).filter (clause.selects db)).length = total := by
  rw [Store.count, hclause, hdb, bind_eq_ok]
  simp only [Except.ok.injEq, exists_eq_left', bind_eq_ok, pure_eq_ok]
  constructor
  · rintro ⟨⟨⟩, h⟩
    exact h
  · intro h
    exact ⟨(), h⟩

theorem count_tables (hclause : compile schema .standard m (.map es) = .ok clause)
    (hstorable : clause.Storable) :
    (tables schema db m).count (.map es) = .ok ((db m.table).filter (clause.selects db)).length := by
  exact (count_eq_ok_iff (s := tables schema db m) rfl hclause).mpr ⟨checkBinds_ok hstorable, rfl⟩

/-! ## Fetches -/

theorem find_loadedColumns (m : Model) (selected : List Column) :
    (loadedColumns m selected).find? (·.name == Model.keyName) = m.column? Model.keyName := by
  unfold loadedColumns
  split
  · rfl
  · rw [List.find?_filter]
    congr 1
    funext c
    cases c.name == Model.keyName <;> simp

theorem keyOf_record {c : Column} (hc : m.column? Model.keyName = some c) (selected : List Column)
    (related : Fields) (row : Row) :
    keyOf (.map (columnsOf (loadedColumns m selected) row ++ related)) =
      .ok (row c.stored).toValue := by
  have hfind : (columnsOf (loadedColumns m selected) row).find Model.keyName =
      some (row c.stored).toValue := by
    rw [find_columnsOf, find_loadedColumns, hc, Option.map_some]
  have hget : keyOf (.map (columnsOf (loadedColumns m selected) row ++ related)) =
      .ok ((Entries.find (columnsOf (loadedColumns m selected) row ++ related)
        Model.keyName).getD .none) := rfl
  rw [hget, Entries.find_append, hfind, Option.some_or, Option.getD_some]

theorem keyOf_graph {c : Column} (hc : m.column? Model.keyName = some c) (row : Row) :
    keyOf (graph schema db identity n m row) = .ok (row c.stored).toValue :=
  get_graph_column rfl hc n row

theorem window_natCast {α : Type} (skip take : Nat) (rows : List α) :
    window (some skip) (some take) rows = (rows.drop skip).take take := by
  have hlimit : ¬ (take : Int) < 0 := by omega
  simp only [window, Option.getD_some, if_neg hlimit, Int.toNat_natCast]

theorem window_of_length_le {α : Type} {rows : List α} {limit : Nat} (h : rows.length ≤ limit) :
    window (some 0) (some limit) rows = rows :=
  (window_natCast 0 limit rows).trans (List.take_of_length_le h)

theorem fetch_tables {c : Column} (hc : m.column? Model.keyName = some c)
    (hclause : compile schema .standard m (.map es) = .ok clause) {limit : Nat}
    (hlimit : (db m.table).length ≤ limit) {order options : Value} {records : List Value}
    (h : (tables schema db m).fetch (.map es) order (.int 0) (.int limit) options = .ok records) :
    (records.map keyOf).Perm
      (((db m.table).filter (clause.selects db)).map fun row => .ok (row c.stored).toValue) := by
  obtain ⟨clause', hclause', h⟩ := bind_eq_ok.mp h
  obtain ⟨terms, -, h⟩ := bind_eq_ok.mp h
  obtain ⟨offset, hoffset, h⟩ := bind_eq_ok.mp h
  obtain ⟨taken, htaken, h⟩ := bind_eq_ok.mp h
  obtain ⟨fields, -, h⟩ := bind_eq_ok.mp h
  obtain ⟨selected, -, h⟩ := bind_eq_ok.mp h
  obtain ⟨included, -, h⟩ := bind_eq_ok.mp h
  obtain ⟨db', hdb', h⟩ := bind_eq_ok.mp h
  obtain ⟨columns, -, h⟩ := bind_eq_ok.mp h
  obtain ⟨relations, -, h⟩ := bind_eq_ok.mp h
  obtain ⟨-, -, h⟩ := bind_eq_ok.mp h
  obtain rfl : clause' = clause := Except.ok.inj (hclause'.symm.trans hclause)
  obtain rfl : some 0 = offset := Except.ok.inj hoffset
  obtain rfl : some (limit : Int) = taken := Except.ok.inj htaken
  obtain rfl : db = db' := Except.ok.inj hdb'
  rw [pure_eq_ok] at h
  subst h
  have hsorted := List.mergeSort_perm ((db m.table).filter (clause'.selects db))
    fun a b => (compareRows terms a b).isLE
  have hlength : (sortRows terms ((db m.table).filter (clause'.selects db))).length ≤ limit := by
    have hfilter := List.length_filter_le (clause'.selects db) (db m.table)
    rw [sortRows, hsorted.length_eq]
    omega
  dsimp only [tables]
  rw [window_of_length_le hlength, List.map_map]
  have hkey : ∀ row, (keyOf ∘ fun row => Value.map (columnsOf (loadedColumns m columns) row ++
      relations.map fun r => (.text r.name, relatedValue schema db r row))) row =
        .ok (row c.stored).toValue := fun row => keyOf_record hc columns _ row
  exact (List.map_congr_left fun row _ => hkey row) ▸ hsorted.map _

theorem projected_objects {options : Value} {rows records : List Value}
    (hrows : ∀ r ∈ rows, ∃ i attributes, r = .object i attributes)
    (h : MemoryStore.projected options rows = .ok records) : records = rows := by
  have hproject : ∀ select, rows.mapM (MemoryStore.project select) = .ok rows := by
    intro select
    rw [mapM_eq_ok, List.forall₂_same]
    intro r hr
    obtain ⟨i, attributes, rfl⟩ := hrows r hr
    rfl
  obtain ⟨fields, -, h⟩ := bind_eq_ok.mp h
  split at h
  · next select _ =>
    split at h
    · exact Except.ok.inj (h.symm.trans (hproject select))
    · exact (pure_eq_ok.mp h).symm
  · exact (pure_eq_ok.mp h).symm

theorem fetch_objects {c : Column} (hc : m.column? Model.keyName = some c) {rows : List Row}
    (hmatching : MemoryStore.matching (.map es) (objects schema db identity n m).records =
      .ok (rows.map (graph schema db identity n m)))
    {limit : Nat} (hlimit : rows.length ≤ limit) {order options : Value} {records : List Value}
    (h : (objects schema db identity n m).fetch (.map es) order (.int 0) (.int limit) options =
      .ok records) :
    (records.map keyOf).Perm (rows.map fun row => .ok (row c.stored).toValue) := by
  obtain ⟨matched, hmatched, h⟩ := bind_eq_ok.mp h
  obtain ⟨sorted, hsorted, h⟩ := bind_eq_ok.mp h
  obtain ⟨window, hwindow, h⟩ := bind_eq_ok.mp h
  rw [hmatching] at hmatched
  obtain rfl := Except.ok.inj hmatched
  have hperm := MemoryStore.ordered_perm hsorted
  have hlength : sorted.length ≤ limit := by
    rw [hperm.length_eq, List.length_map]
    exact hlimit
  rw [Window.slice_of_length_le hlength] at hwindow
  obtain rfl := Except.ok.inj hwindow
  have hobjects : ∀ r ∈ sorted, ∃ i attributes, r = .object i attributes := by
    intro r hr
    obtain ⟨row, -, rfl⟩ := List.mem_map.mp (hperm.subset hr)
    exact exists_object n m row
  rw [projected_objects hobjects h]
  have hkeys : (rows.map (graph schema db identity n m)).map keyOf =
      rows.map fun row => .ok (row c.stored).toValue := by
    rw [List.map_map]
    exact List.map_congr_left fun row _ => keyOf_graph hc row
  exact hkeys ▸ hperm.map keyOf

/-! ## Fetches without options -/

theorem fetch_tables_window (hclause : compile schema .standard m (.map es) = .ok clause)
    {order : Value} {terms : List SortTerm} (hterms : compileOrder m order = .ok terms)
    (hstorable : ∀ b ∈ clause.binds ++ terms.flatMap (fun o => Clause.termBinds o.term), b.Storable)
    {skip take : Nat} (hskip : fits skip = true) (htake : fits take = true) :
    (tables schema db m).fetch (.map es) order (.int skip) (.int take) (.map []) =
      .ok ((((sortRows terms ((db m.table).filter (clause.selects db))).drop skip).take take).map
        (record m)) := by
  have hinteger : ∀ n : Int, fits n = true → Bind.Storable ⟨.plain, .int n⟩ := fun n hn =>
    ⟨_, (binds_int hn).cell⟩
  have hcheck : checkBinds (clause.binds ++ terms.flatMap (fun o => Clause.termBinds o.term) ++
      [⟨.plain, .int take⟩, ⟨.plain, .int skip⟩]) = .ok () := by
    refine checkBinds_ok (List.forall_mem_append.mpr ⟨hstorable, ?_⟩)
    exact List.forall_mem_cons.mpr
      ⟨hinteger take htake, List.forall_mem_singleton.mpr (hinteger skip hskip)⟩
  have hrecord : ∀ row, Value.map (columnsOf (loadedColumns m []) row ++ []) = record m row :=
    fun row => congrArg Value.map (List.append_nil _)
  refine bind_eq_ok.mpr ⟨clause, hclause, bind_eq_ok.mpr ⟨terms, hterms, bind_eq_ok.mpr
    ⟨some skip, rfl, bind_eq_ok.mpr ⟨some take, rfl, bind_eq_ok.mpr ⟨[], rfl, bind_eq_ok.mpr ⟨[], rfl,
    bind_eq_ok.mpr ⟨[], rfl, bind_eq_ok.mpr ⟨db, rfl, bind_eq_ok.mpr ⟨[], rfl, bind_eq_ok.mpr ⟨[], rfl,
    bind_eq_ok.mpr ⟨(), hcheck, ?_⟩⟩⟩⟩⟩⟩⟩⟩⟩⟩⟩
  dsimp only [tables]
  rw [window_natCast]
  exact congrArg Except.ok (List.map_congr_left fun row _ => hrecord row)

theorem exists_fetch_tables (hclause : compile schema .standard m (.map es) = .ok clause)
    (hstorable : clause.Storable) {limit : Nat} (hlimit : fits limit = true) :
    ∃ records, (tables schema db m).fetch (.map es) .none (.int 0) (.int limit) (.map []) =
      .ok records := by
  have hterms : compileOrder m .none = .ok [] := rfl
  have hbinds : ∀ b ∈ clause.binds ++ [], b.Storable := by
    rw [List.append_nil]
    exact hstorable
  have hskip : fits (0 : Nat) = true := rfl
  exact ⟨_, fetch_tables_window hclause hterms hbinds hskip hlimit⟩

theorem exists_fetch_objects {rows : List Row}
    (hmatching : MemoryStore.matching (.map es) (objects schema db identity n m).records =
      .ok (rows.map (graph schema db identity n m))) (limit : Nat) :
    ∃ records, (objects schema db identity n m).fetch (.map es) .none (.int 0) (.int limit)
      (.map []) = .ok records :=
  ⟨_, bind_eq_ok.mpr ⟨_, hmatching, bind_eq_ok.mpr ⟨_, rfl, bind_eq_ok.mpr ⟨_, rfl, rfl⟩⟩⟩⟩

/-! ## Agreement -/

structure StoresAgree (schema : Schema) (db : Database) (identity : Model → Row → Nat) (n : Nat)
    (m : Model) (es : Fields) : Prop where
  /-- The rows that the one selects are those whose objects the other selects. -/
  selected : ∃ clause, compile schema .standard m (.map es) = .ok clause ∧
    MemoryStore.matching (.map es) (objects schema db identity n m).records =
      .ok (((db m.table).filter (clause.selects db)).map (graph schema db identity n m))
  /-- Both count as many. -/
  counted : ∃ total, (tables schema db m).count (.map es) = .ok total ∧
    (objects schema db identity n m).count (.map es) = .ok total
  /-- Fetches of all that is selected have the same keys, whatever the order and the options. -/
  keys : ∀ limit : Nat, (db m.table).length ≤ limit → ∀ order options records found,
    (tables schema db m).fetch (.map es) order (.int 0) (.int limit) options = .ok records →
    (objects schema db identity n m).fetch (.map es) order (.int 0) (.int limit) options = .ok found →
    (records.map keyOf).Perm (found.map keyOf)
  /-- Fetches without an order return. -/
  fetched : ∀ limit : Nat, fits limit = true →
    (∃ records, (tables schema db m).fetch (.map es) .none (.int 0) (.int limit) (.map []) =
      .ok records) ∧
    ∃ found, (objects schema db identity n m).fetch (.map es) .none (.int 0) (.int limit) (.map []) =
      .ok found

theorem StoresAgree.of_matching {c : Column} (hc : m.column? Model.keyName = some c)
    (hclause : compile schema .standard m (.map es) = .ok clause) (hstorable : clause.Storable)
    (hmatching : MemoryStore.matching (.map es) (objects schema db identity n m).records =
      .ok (((db m.table).filter (clause.selects db)).map (graph schema db identity n m))) :
    StoresAgree schema db identity n m es where
  selected := ⟨clause, hclause, hmatching⟩
  counted := by
    refine ⟨_, count_tables hclause hstorable, ?_⟩
    rw [MemoryStore.count, hmatching]
    exact congrArg Except.ok (List.length_map _)
  keys := by
    intro limit hlimit order options records found hrecords hfound
    have hlength := Nat.le_trans (List.length_filter_le (clause.selects db) (db m.table)) hlimit
    exact (fetch_tables hc hclause hlimit hrecords).trans
      (fetch_objects hc hmatching hlength hfound).symm
  fetched := fun limit hlimit =>
    ⟨exists_fetch_tables hclause hstorable hlimit, exists_fetch_objects hmatching limit⟩

end Sql

open Sql Outcome

/-- **Agreement of the stores.** Asked for a comparing predicate of which no negated comparison reads a
null, the store over a database answers unless some relation is asked for the empty predicate, and then
it agrees with the store in memory. -/
theorem stores_agree {schema : Schema} {db : Database} {m : Model} {es : Fields}
    (identity : Model → Row → Nat) (n : Nat) (hschema : schema.Sound) (hdb : db.Sound schema)
    (hm : m ∈ schema) (hes : ComparingPredicate schema m es) (hdepth : (Value.map es).depth ≤ n)
    (hsettled : ∀ row ∈ db m.table, ∀ x, Reads schema db m row false es x → x.Settled) :
    ((∃ total, (tables schema db m).count (.map es) = .ok total) ↔ ¬ AsksNothing schema m es) ∧
      (¬ AsksNothing schema m es → StoresAgree schema db identity n m es) := by
  have hclauses := exists_clause identity hschema hdb hm hes hdepth hsettled
  refine ⟨⟨fun ⟨total, htotal⟩ hasks => ?_, fun hasks => ?_⟩, fun hasks => ?_⟩
  · obtain ⟨clause, hclause, -⟩ := bind_eq_ok.mp htotal
    obtain ⟨parts, hparts, -⟩ := bind_eq_ok.mp hclause
    exact hasks.not_compiled _ ⟨parts, hparts⟩
  · obtain ⟨clause, hclause, hstorable, -⟩ := hclauses hasks
    exact ⟨_, count_tables hclause hstorable⟩
  · obtain ⟨clause, hclause, hstorable, hmatching⟩ := hclauses hasks
    obtain ⟨c, hc⟩ := hschema.key m hm
    exact .of_matching hc hclause hstorable hmatching

/-! ## Users outside the core team -/

namespace Sql.Sample

theorem schema_sound : schema.Sound where
  key := by
    refine List.forall_mem_cons.mpr ⟨⟨_, rfl⟩, List.forall_mem_cons.mpr ⟨⟨_, rfl⟩, ?_⟩⟩
    exact List.forall_mem_singleton.mpr ⟨_, rfl⟩
  distinct := by decide
  column := by decide
  relation := by decide
  table := by
    have htargets : ∀ m ∈ schema, ∀ r ∈ m.relations,
        schema.model? r.target = none ∨ (schema.model? r.target).map (·.table) = some r.targetTable := by
      decide
    intro m hm r hr target htarget
    rcases htargets m hm r hr with h | h
    · rw [h] at htarget
      nomatch htarget
    · rw [htarget] at h
      exact (Option.some.inj h).symm

theorem database_sound : database.Sound schema where
  typed := by decide +kernel
  single := by decide +kernel

/-- That a column of texts compares with a text in one way. -/
def compared (column : String) (key : NativeKey) (operand : String) : Fields :=
  [(.text column, .map [(.text key.name, .text operand)])]

def inTeam (name : String) : Fields := [(.text "team", .map (compared "name" .equals name))]

/-- Neither active nor in the core team, and deleted since 2024. -/
def outsiders : Fields :=
  (.text "NOT", .list ([compared "status" .equals "active", inTeam "Core"].map .map)) ::
    compared "deletedAt" .gte "2024"

theorem takes_text (s : String) : ColumnType.text.Takes (.text s) := ⟨s, rfl⟩

theorem comparing_outsiders : ComparingPredicate schema user outsiders := by
  have hstatus : ComparingPredicate schema user (compared "status" .equals "active") :=
    .column rfl rfl (.test rfl (takes_text _) .nil) .nil
  have hteam : ComparingPredicate schema user (inTeam "Core") :=
    .relation rfl rfl rfl (.column rfl rfl (.test rfl (takes_text _) .nil) .nil) .nil
  have hdeleted : ComparingPredicate schema user (compared "deletedAt" .gte "2024") :=
    .column rfl rfl (.test rfl (takes_text _) .nil) .nil
  exact .junctions rfl
    (List.forall_mem_cons.mpr ⟨hstatus, List.forall_mem_singleton.mpr hteam⟩) hdeleted

theorem settled_outsiders :
    ∀ row ∈ users, ∀ x, Reads schema database user row false outsiders x → x.Settled := by
  have hstatus : ∀ row ∈ users, row "status" ≠ .null := by decide +kernel
  intro row hrow x hx
  rcases hx.of_cons with hx | hx
  · obtain ⟨es, hes, hx⟩ := hx.of_junctions rfl
    rcases List.mem_cons.mp hes with hes | hes
    · obtain rfl := Value.map.inj hes
      obtain rfl := List.mem_singleton.mp (hx.of_column rfl rfl rfl)
      exact fun _ _ => hstatus row hrow
    · obtain rfl := Value.map.inj (List.mem_singleton.mp hes)
      obtain ⟨other, -, hx⟩ := hx.of_relation rfl rfl rfl rfl
      obtain rfl := List.mem_singleton.mp (hx.of_column rfl rfl rfl)
      exact fun h => nomatch h
  · obtain rfl := List.mem_singleton.mp (hx.of_column rfl rfl rfl)
    exact fun h => nomatch h

end Sql.Sample

open Sql.Sample

/-- The stores agree on these users; there are two. -/
theorem stores_agree_outsiders :
    schema.Sound ∧ database.Sound schema ∧ user ∈ schema ∧ ComparingPredicate schema user outsiders ∧
      (Value.map outsiders).depth ≤ 7 ∧
      (∀ row ∈ database user.table, ∀ x,
        Reads schema database user row false outsiders x → x.Settled) ∧
      (tables schema database user).count (.map outsiders) = .ok 2 ∧
      StoresAgree schema database (fun _ _ => 0) 7 user outsiders := by
  have hcount : (tables schema database user).count (.map outsiders) = .ok 2 := by rfl
  have hagree := stores_agree (fun _ _ => 0) 7 schema_sound database_sound (by decide)
    comparing_outsiders (by decide) settled_outsiders
  exact ⟨schema_sound, database_sound, by decide, comparing_outsiders, by decide, settled_outsiders,
    hcount, hagree.2 (hagree.1.mp ⟨2, hcount⟩)⟩

def inAnyTeam : Fields := [(.text "team", .map [])]

/-- **The failure.** To ask for users in whatever team compares nothing with null, and the store in
memory answers it, but it has no clause. -/
theorem any_team_has_no_clause :
    ComparingPredicate schema user inAnyTeam ∧
      (∀ row ∈ database user.table, ∀ x, ¬ Reads schema database user row false inAnyTeam x) ∧
      (tables schema database user).count (.map inAnyTeam) =
        .error (.unsupportedPredicate (.text "team") "User") ∧
      (objects schema database (fun _ _ => 0) 3 user).count (.map inAnyTeam) = .ok 10 := by
  refine ⟨.relation rfl rfl rfl .nil .nil, fun row _ x hx => ?_, rfl, rfl⟩
  obtain ⟨other, -, hx⟩ := hx.of_relation rfl rfl rfl rfl
  cases hx with
  | junction hmem | junctions hmem | relation hmem | column hmem => nomatch hmem

end Listing
