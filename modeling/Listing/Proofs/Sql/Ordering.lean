import Listing.Proofs.Memory.Fetch
import Listing.Proofs.Sql.Paging
import Listing.Proofs.Value.Bytes

/-!
# The two stores put rows in one order

The store over a database asks for one sort by all columns at once, where null goes below every value and
texts are compared by their bytes. The store in memory sorts once for each field, by the places of the
values. On columns of integers and texts the two comparisons are one. If the column that identifies the
rows is among those sorted by, the order leaves no choice, and both stores cut the same rows from it.
-/

namespace Listing.Sql

open Outcome Memory

/-! ## Cells and places -/

def Cell.IsPlain (c : Cell) : Prop := c = .null ∨ (∃ n, c = .integer n) ∨ ∃ s, c = .text s

theorem ColumnType.Holds.isPlain {t : ColumnType} {c : Cell} (h : t.Holds c) (ht : t ≠ .real) :
    c.IsPlain := by
  rcases h with rfl | h
  · exact .inl rfl
  · cases t with
    | integer => exact .inr (.inl h)
    | text => exact .inr (.inr h)
    | real => exact absurd rfl ht

theorem Cell.IsPlain.isOrdinary {c : Cell} (h : c.IsPlain) : c.toValue.isOrdinary = true := by
  rcases h with rfl | ⟨n, rfl⟩ | ⟨s, rfl⟩
  · rfl
  · rfl
  · rfl

theorem Cell.IsPlain.eq_of_place_eq {c d : Cell} (hc : c.IsPlain) (hd : d.IsPlain)
    (h : c.toValue.place = d.toValue.place) : c = d := by
  obtain ⟨hgroup, hamount, hcodes⟩ := Value.place_eq_iff.mp h
  rcases hc with rfl | ⟨m, rfl⟩ | ⟨s, rfl⟩
  · rcases hd with rfl | ⟨n, rfl⟩ | ⟨t, rfl⟩
    · rfl
    · nomatch hgroup
    · nomatch hgroup
  · rcases hd with rfl | ⟨n, rfl⟩ | ⟨t, rfl⟩
    · nomatch hgroup
    · rw [show m = n from Int.cast_injective hamount]
    · nomatch hgroup
  · rcases hd with rfl | ⟨n, rfl⟩ | ⟨t, rfl⟩
    · nomatch hgroup
    · nomatch hgroup
    · have hst := List.map_injective_iff.mpr (fun _ _ h => Char.toNat_inj.mp h) hcodes
      rw [String.toList_inj.mp hst]

theorem compares_of_isLE {α : Type} [LinearOrder α] {o : Ordering} {a b : α}
    (hle : o.isLE = true ↔ a ≤ b) (heq : o = .eq ↔ a = b) : o.Compares a b := by
  cases o with
  | lt => exact lt_of_le_of_ne (hle.mp rfl) fun h => nomatch heq.mpr h
  | eq => exact heq.mp rfl
  | gt => exact not_le.mp fun h => nomatch hle.mpr h

theorem compares_integer (m n : Int) :
    ((Cell.integer m).order (.integer n)).Compares (Value.int m).place (Value.int n).place := by
  have hinj : (Value.int m).place = (Value.int n).place → m = n := fun h =>
    Cell.integer.inj (Cell.IsPlain.eq_of_place_eq (.inr (.inl ⟨m, rfl⟩)) (.inr (.inl ⟨n, rfl⟩)) h)
  rw [order_integer]
  apply compares_of_isLE
  · rw [Int.isLE_compare, Value.place_le_iff]
    simp [Value.group, Value.amount, Value.codes, le_iff_lt_or_eq]
  · rw [Int.compare_eq_eq]
    exact ⟨fun h => h ▸ rfl, hinj⟩

theorem compares_text (s t : String) :
    ((Cell.text s).order (.text t)).Compares (Value.text s).place (Value.text t).place := by
  have hinj : (Value.text s).place = (Value.text t).place → s = t := fun h =>
    Cell.text.inj (Cell.IsPlain.eq_of_place_eq (.inr (.inr ⟨s, rfl⟩)) (.inr (.inr ⟨t, rfl⟩)) h)
  have horder : (Cell.text s).order (.text t) = Value.compareTexts s t := rfl
  rw [horder]
  apply compares_of_isLE
  · rw [Value.isLE_compareTexts, Value.place_le_iff]
    simp [Value.group, Value.amount, Value.codes]
  · rw [Value.compareTexts_eq_iff]
    exact ⟨fun h => h ▸ rfl, hinj⟩

theorem Cell.IsPlain.order_compares {c d : Cell} (hc : c.IsPlain) (hd : d.IsPlain) :
    (c.order d).Compares c.toValue.place d.toValue.place := by
  -- cells of different kinds are of different groups, and the lesser kind is of the lesser group
  have hkinds : ∀ {a b : Value}, a.group < b.group → a.place < b.place := Value.place_lt_of_group_lt
  rcases hc with rfl | ⟨m, rfl⟩ | ⟨s, rfl⟩
  · rcases hd with rfl | ⟨n, rfl⟩ | ⟨t, rfl⟩
    · exact rfl
    · exact hkinds Nat.zero_lt_one
    · exact hkinds (Nat.zero_lt_succ 2)
  · rcases hd with rfl | ⟨n, rfl⟩ | ⟨t, rfl⟩
    · exact hkinds Nat.zero_lt_one
    · exact compares_integer m n
    · exact hkinds (Nat.one_lt_succ_succ 1)
  · rcases hd with rfl | ⟨n, rfl⟩ | ⟨t, rfl⟩
    · exact hkinds (Nat.zero_lt_succ 2)
    · exact hkinds (Nat.one_lt_succ_succ 1)
    · exact compares_text s t

/-! ## Rows and their records -/

/-- Whether records hold under the names of a model's columns what the rows hold there. -/
def Model.Presents (m : Model) (object : Row → Value) : Prop :=
  ∀ k c, k.name?.bind m.column? = some c → ∀ row, (object row).get k = .ok (row c.stored).toValue

theorem presents_record (m : Model) : m.Presents (record m) := by
  intro k c hk row
  obtain ⟨name, hname, hc⟩ := Option.bind_eq_some_iff.mp hk
  have hfind : (columnsOf m.columns row).find name = some (row c.stored).toValue := by
    rw [find_columnsOf]
    exact congrArg (Option.map _) hc
  rw [record, Value.get, Entries.get?_of_name hname, hfind, Option.getD_some]

theorem presents_graph (schema : Schema) (db : Database) (identity : Model → Row → Nat) (n : Nat)
    (m : Model) : m.Presents (graph schema db identity n m) := by
  intro k c hk row
  obtain ⟨name, hname, hc⟩ := Option.bind_eq_some_iff.mp hk
  exact get_graph_column hname hc n row

/-! ## Terms and fields -/

/-- Whether a term sorts by the column and in the direction that an entry of an order names. -/
def SortTerm.Follows (m : Model) (e : Key × Value) (o : SortTerm) : Prop :=
  ∃ c, e.1.name?.bind m.column? = some c ∧ o = ⟨.column c, isFalling e.2⟩

variable {m : Model} {order : Fields} {terms : List SortTerm} {object : Row → Value}

theorem Model.term_column {k : Key} {c : Column} (h : k.name?.bind m.column? = some c) :
    m.term k = .ok (.column c) := by
  obtain ⟨name, hname, hc⟩ := Option.bind_eq_some_iff.mp h
  rw [Model.term, hname, Option.bind_some, Model.term?, hc]

theorem exists_compileOrder
    (h : ∀ e ∈ order, ∃ c, e.1.name?.bind m.column? = some c) :
    ∃ terms, compileOrder m (.map order) = .ok terms ∧
      List.Forall₂ (SortTerm.Follows m) order terms := by
  have hfollows : ∀ e ∈ order, ∃ o, SortTerm.Follows m e o := by
    intro e he
    obtain ⟨c, hc⟩ := h e he
    exact ⟨_, c, hc, rfl⟩
  obtain ⟨terms, hterms⟩ := exists_forall₂ hfollows
  refine ⟨terms, ?_, hterms⟩
  cases order with
  | nil =>
    cases hterms
    rfl
  | cons e order =>
    refine mapM_eq_ok.mpr (hterms.imp fun e o ho => ?_)
    obtain ⟨c, hc, rfl⟩ := ho
    exact bind_eq_ok.mpr ⟨_, Model.term_column hc, rfl⟩

/-- Whether the cells of a row are plain in all columns that an order names. -/
def Row.PlainIn (m : Model) (order : Fields) (row : Row) : Prop :=
  ∀ e ∈ order, ∀ c, e.1.name?.bind m.column? = some c → (row c.stored).IsPlain

theorem field_of_presents (hobject : m.Presents object) {k : Key} {c : Column}
    (hk : k.name?.bind m.column? = some c) (row : Row) :
    (object row).field k = (row c.stored).toValue := by
  rw [Value.field, hobject k c hk row]
  rfl

theorem lt_or_eq_and_iff {α : Type} [LinearOrder α] {o : Ordering} {a b : α} (h : o.Compares a b)
    (rest : Prop) : (o = .lt ∨ o = .eq ∧ rest) ↔ a ≤ b ∧ (a = b → rest) := by
  cases o with
  | lt =>
    have hlt : a < b := h
    simp [hlt.le, hlt.ne]
  | eq =>
    have heq : a = b := h
    simp [heq]
  | gt =>
    have hgt : b < a := h
    simp [hgt]

theorem isLE_compareRows (hobject : m.Presents object)
    (hterms : List.Forall₂ (SortTerm.Follows m) order terms) {a b : Row} (ha : a.PlainIn m order)
    (hb : b.PlainIn m order) :
    (compareRows terms a b).isLE = true ↔ MayPrecede (sought order) (object a) (object b) := by
  induction hterms with
  | nil => exact iff_of_true rfl trivial
  | @cons e o order terms hfirst _ ih =>
    obtain ⟨c, hc, rfl⟩ := hfirst
    have hrest := ih (fun e' he' => ha e' (List.mem_cons_of_mem _ he'))
      (fun e' he' => hb e' (List.mem_cons_of_mem _ he'))
    have hcells := (ha e List.mem_cons_self c hc).order_compares (hb e List.mem_cons_self c hc)
    show ((if isFalling e.2 then ((a c.stored).order (b c.stored)).swap
      else (a c.stored).order (b c.stored)).then (compareRows terms a b)).isLE = true ↔
        atMostBy e.1 (heading e.2) (object a) (object b) = true ∧
          (((object a).field e.1).place = ((object b).field e.1).place →
            MayPrecede (sought order) (object a) (object b))
    rw [Ordering.isLE_then_iff_or, hrest, heading]
    by_cases hfalling : isFalling e.2 = true
    · simp only [if_pos hfalling, atMostBy, decide_eq_true_eq, field_of_presents hobject hc]
      rw [lt_or_eq_and_iff (Ordering.compares_swap.mpr hcells)]
      simp only [eq_comm]
    · simp only [if_neg hfalling, atMostBy, decide_eq_true_eq, field_of_presents hobject hc]
      exact lt_or_eq_and_iff hcells _

/-- The rows that a database sorts have the records in their arrangement. -/
theorem map_sortRows_arranged (hobject : m.Presents object)
    (hterms : List.Forall₂ (SortTerm.Follows m) order terms) {rows : List Row}
    (hrows : ∀ row ∈ rows, row.PlainIn m order) :
    Arranged (sought order) (rows.map object) ((sortRows terms rows).map object) := by
  have hle : ∀ a ∈ rows, ∀ b ∈ rows, (compareRows terms a b).isLE =
      decide (MayPrecede (sought order) (object a) (object b)) := by
    intro a ha b hb
    rw [Bool.eq_iff_iff, decide_eq_true_iff]
    exact isLE_compareRows hobject hterms (hrows a ha) (hrows b hb)
  rw [sortRows, List.map_mergeSort (s := fun a b => decide (MayPrecede (sought order) a b)) hle]
  exact mergeSort_arranged (sought order) (rows.map object)

/-! ## An order that leaves no choice -/

theorem pairwise_sortRows (hterms : List.Forall₂ (SortTerm.Follows m) order terms) {rows : List Row}
    (hrows : ∀ row ∈ rows, row.PlainIn m order) :
    (sortRows terms rows).Pairwise fun a b => (compareRows terms a b).isLE = true := by
  have harranged := map_sortRows_arranged (presents_record m) hterms hrows
  have hmem : ∀ row ∈ sortRows terms rows, row.PlainIn m order := fun row hrow =>
    hrows row ((List.mergeSort_perm _ _).mem_iff.mp hrow)
  refine (List.pairwise_map.mp harranged.ordered).imp_of_mem fun ha hb hab => ?_
  exact (isLE_compareRows (presents_record m) hterms (hmem _ ha) (hmem _ hb)).mpr hab

/-- If the column that identifies the rows is among those sorted by, there is one order of the rows. -/
theorem eq_sortRows_of_pairwise {key : Column} (hkey : m.column? Model.keyName = some key)
    (hincluded : ∃ e ∈ order, e.1.name? = some Model.keyName)
    (hterms : List.Forall₂ (SortTerm.Follows m) order terms) {rows : List Row}
    (hrows : ∀ row ∈ rows, row.PlainIn m order) (hdistinct : (rows.map (· key.stored)).Nodup)
    {sorted : List Row} (hperm : sorted.Perm rows)
    (hsorted : sorted.Pairwise fun a b => (compareRows terms a b).isLE = true) :
    sorted = sortRows terms rows := by
  have hpairwise := pairwise_sortRows hterms hrows
  refine List.Perm.eq_of_pairwise ?_ hsorted hpairwise (hperm.trans (List.mergeSort_perm _ _).symm)
  intro a b ha hb hab hba
  have ha := hperm.mem_iff.mp ha
  have hb := (List.mergeSort_perm _ _).mem_iff.mp hb
  -- rows that go before one another tie, so they have the same key
  have htie : tie (sought order) (record m a) (record m b) = true := tie_of_mayPrecede
    ((isLE_compareRows (presents_record m) hterms (hrows a ha) (hrows b hb)).mp hab)
    ((isLE_compareRows (presents_record m) hterms (hrows b hb) (hrows a ha)).mp hba)
  obtain ⟨e, he, hname⟩ := hincluded
  have hc : e.1.name?.bind m.column? = some key := by rw [hname, Option.bind_some, hkey]
  have hplace := of_decide_eq_true (List.all_eq_true.mp htie _ (List.mem_map_of_mem he))
  rw [field_of_presents (presents_record m) hc, field_of_presents (presents_record m) hc] at hplace
  have hcell := Cell.IsPlain.eq_of_place_eq (hrows a ha e he key hc) (hrows b hb e he key hc) hplace
  exact List.inj_on_of_nodup_map hdistinct ha hb hcell

/-! ## Fetching -/

theorem fetch_sorted {schema : Schema} {db : Database}
    (hcompile : compileOrder m (.map order) = .ok terms)
    (hterms : List.Forall₂ (SortTerm.Follows m) order terms) {skip take : Nat}
    (hskip : fits skip = true) (htake : fits take = true) :
    (tables schema db m).fetch (.map []) (.map order) (.int skip) (.int take) (.map []) =
      .ok ((((sortRows terms (db m.table)).drop skip).take take).map (record m)) := by
  have hclause : compile schema .standard m (.map []) = .ok (Clause.conjunction []) := rfl
  have hall : (db m.table).filter ((Clause.conjunction []).selects db) = db m.table :=
    List.filter_true _
  have hbinds : ∀ b ∈ (Clause.conjunction []).binds ++
      terms.flatMap (fun o => Clause.termBinds o.term), b.Storable := by
    intro b hb
    obtain ⟨o, ho, hb⟩ := List.mem_flatMap.mp hb
    obtain ⟨e, -, c, -, rfl⟩ := exists_source hterms ho
    nomatch hb
  rw [fetch_tables_window hclause hcompile hbinds hskip htake, hall]

theorem fetch_records_sorted (hobject : m.Presents object)
    (hterms : List.Forall₂ (SortTerm.Follows m) order terms) {rows : List Row}
    (hrows : ∀ row ∈ rows, row.PlainIn m order) (skip take : Nat) :
    MemoryStore.fetch ⟨rows.map object⟩ (.map []) (.map order) (.int skip) (.int take) (.map []) =
      .ok ((((sortRows terms rows).drop skip).take take).map object) := by
  have hvalues : ∀ r ∈ MemoryStore.selection ⟨rows.map object⟩ (.map []), ∀ e ∈ order,
      ∃ v, r.get e.1 = .ok v ∧ v.isOrdinary = true := by
    rw [MemoryStore.selection_empty]
    intro r hr e he
    obtain ⟨row, hrow, rfl⟩ := List.mem_map.mp hr
    obtain ⟨o, -, c, hc, -⟩ := exists_result hterms he
    exact ⟨_, hobject e.1 c hc row, (hrows row hrow e he c hc).isOrdinary⟩
  have hmatching : ∀ r ∈ (MemoryStore.mk (rows.map object)).records,
      Succeeds (Predicate.valueHolds r (.map [])) := fun r _ => ⟨true, rfl⟩
  have hselect : ∀ select, Entries.find ([] : Fields) "select" = some select →
      select.isTrue = false := fun _ h => nomatch h
  obtain ⟨sorted, hsorted, hfetch⟩ :=
    MemoryStore.exists_fetch_arranged hmatching hvalues hselect skip take
  rw [MemoryStore.selection_empty] at hsorted
  obtain rfl := (map_sortRows_arranged hobject hterms hrows).unique hsorted
  rw [hfetch, List.map_take, List.map_drop]

/-- **One order for both stores.** Asked for everything, in an order by columns of integers and texts that
includes the column which identifies the rows, the store over a database and the store in memory of the
same rows fetch the same rows in the same order. That order is the only one that the sort by all terms
admits, where texts are compared by their bytes. -/
theorem stores_order_alike {schema : Schema} {db : Database} {key : Column}
    (hkey : m.column? Model.keyName = some key)
    (htyped : ∀ row ∈ db m.table, ∀ c ∈ m.columns, c.type.Holds (row c.stored))
    (hdistinct : ((db m.table).map (· key.stored)).Nodup) (hobject : m.Presents object)
    (horder : ∀ e ∈ order, ∃ c, e.1.name?.bind m.column? = some c ∧ c.type ≠ .real)
    (hincluded : ∃ e ∈ order, e.1.name? = some Model.keyName) {skip take : Nat}
    (hskip : skip < 2 ^ 63) (htake : take < 2 ^ 63) :
    ∃ terms sorted window,
      compileOrder m (.map order) = .ok terms ∧
      (∀ rows : List Row, rows = sorted ↔ rows.Perm (db m.table) ∧
        rows.Pairwise fun a b => (compareRows terms a b).isLE = true) ∧
      window = (sorted.drop skip).take take ∧
      (tables schema db m).fetch (.map []) (.map order) (.int skip) (.int take) (.map []) =
        .ok (window.map (record m)) ∧
      MemoryStore.fetch ⟨(db m.table).map object⟩ (.map []) (.map order) (.int skip) (.int take)
        (.map []) = .ok (window.map object) ∧
      (window.map (record m)).map keyOf = (window.map object).map keyOf ∧
      ∀ s t, (Cell.text s).order (.text t) =
        Value.compareBytes s.toUTF8.data.toList t.toUTF8.data.toList := by
  have hcolumns : ∀ e ∈ order, ∃ c, e.1.name?.bind m.column? = some c := by
    intro e he
    obtain ⟨c, hc, -⟩ := horder e he
    exact ⟨c, hc⟩
  have hplain : ∀ row ∈ db m.table, row.PlainIn m order := by
    intro row hrow e he c hc
    obtain ⟨c', hc', htype⟩ := horder e he
    obtain rfl := Option.some.inj (hc'.symm.trans hc)
    obtain ⟨name, -, hname⟩ := Option.bind_eq_some_iff.mp hc
    exact (htyped row hrow c' (Model.mem_of_column? hname).1).isPlain htype
  have hfits : ∀ n : Nat, n < 2 ^ 63 → fits n = true := by
    intro n hn
    rw [fits_iff (Int.natCast_nonneg n)]
    exact_mod_cast hn
  obtain ⟨terms, hcompile, hterms⟩ := exists_compileOrder hcolumns
  have hkeys : ∀ row, keyOf (record m row) = keyOf (object row) := by
    intro row
    have hc : (Key.text Model.keyName).name?.bind m.column? = some key := hkey
    exact (presents_record m _ key hc row).trans (hobject _ key hc row).symm
  refine ⟨terms, sortRows terms (db m.table), _, hcompile, fun rows => ⟨?_, ?_⟩, rfl,
    fetch_sorted hcompile hterms (hfits skip hskip) (hfits take htake),
    fetch_records_sorted hobject hterms hplain skip take, ?_, fun s t => ?_⟩
  · rintro rfl
    exact ⟨List.mergeSort_perm _ _, pairwise_sortRows hterms hplain⟩
  · rintro ⟨hperm, hsorted⟩
    exact eq_sortRows_of_pairwise hkey hincluded hterms hplain hdistinct hperm hsorted
  · rw [List.map_map, List.map_map]
    exact List.map_congr_left fun row _ => hkeys row
  · exact Value.compareTexts_eq_compareBytes s t

open Sample

/-- Users by falling status and, where it is the same, rising date of deletion, then by their keys. -/
def byStatus : Fields :=
  [(.text "status", .text "desc"), (.text "deletedAt", .text "asc"), (.text "id", .text "asc")]

theorem users_order_alike :
    ((database user.table).map (· "id")).Nodup ∧
      ∃ window : List Row,
        (tables schema database user).fetch (.map []) (.map byStatus) (.int 3) (.int 4) (.map []) =
          .ok (window.map (record user)) ∧
        MemoryStore.fetch ⟨users.map (graph schema database (fun _ _ => 0) 2 user)⟩ (.map [])
          (.map byStatus) (.int 3) (.int 4) (.map []) =
            .ok (window.map (graph schema database (fun _ _ => 0) 2 user)) := by
  have hdistinct : ((database user.table).map (· "id")).Nodup := by decide
  have horder : ∀ e ∈ byStatus, ∃ c, e.1.name?.bind user.column? = some c ∧ c.type ≠ .real := by
    refine List.forall_mem_cons.mpr ⟨⟨_, rfl, by decide⟩, List.forall_mem_cons.mpr
      ⟨⟨_, rfl, by decide⟩, List.forall_mem_singleton.mpr ⟨_, rfl, by decide⟩⟩⟩
  have hincluded : ∃ e ∈ byStatus, e.1.name? = some Model.keyName := by
    refine ⟨(.text "id", .text "asc"), ?_, rfl⟩
    simp [byStatus]
  have htyped := database_sound.typed user (by decide)
  have hobject := presents_graph schema database (fun _ _ => 0) 2 user
  obtain ⟨terms, sorted, window, -, -, -, htables, hobjects, -, -⟩ :=
    stores_order_alike rfl htyped hdistinct hobject horder hincluded
      (by decide : 3 < 2 ^ 63) (by decide : 4 < 2 ^ 63)
  exact ⟨hdistinct, window, htables, hobjects⟩

end Listing.Sql
