import Listing.Proofs.Sql.Single

/-!
# Membership in the two stores

Membership of a column that is never null in a collection, which may hold null. A database reads every
kind of collection, but what is not a member of one that holds null is open, so that nothing is selected
as no member. Memory takes null for a value like others, but a set for a single value that nothing equals.
-/

namespace Listing

open Outcome Predicate

/-! ## Collections -/

inductive CollectionKind where
  | list | tuple | set
deriving DecidableEq

def CollectionKind.of (kind : CollectionKind) (xs : List Value) : Value :=
  match kind with
  | list => .list xs
  | tuple => .tuple xs
  | set => .set xs

theorem CollectionKind.fields?_of (kind : CollectionKind) (xs : List Value) :
    (kind.of xs).fields? = none := by
  cases kind <;> rfl

namespace Sql

variable {col : Column} {t : ColumnType} {c : Cell} {x : Value} {xs : List Value} {among : Bool}
  {kind : CollectionKind}

/-- Whether a value may be a member of a collection for a column: null, or an operand for it. -/
def ColumnType.Admits (t : ColumnType) (v : Value) : Prop := v = .none ∨ t.Takes v

/-- Whether the value in a column of a row equals a member. -/
def isMember (col : Column) (xs : List Value) (row : Row) : Bool :=
  xs.any ((row col.stored).toValue.same ·)

/-! ## Over a database -/

/-- What a database knows of membership, given whether a member is found and whether null is among them. -/
def foundTruth (found null : Bool) : Truth :=
  if found then some true else if null then none else some false

theorem storable_of_admits (h : t.Admits x) : Bind.Storable ⟨.plain, x⟩ := by
  rcases h with rfl | h
  · exact ⟨.null, rfl⟩
  · exact h.storable

theorem beside_of_admits (htype : t ≠ .real) (h : t.Admits x) : BindType.beside t x = .plain := by
  rcases h with rfl | h
  · exact if_neg htype
  · exact beside_of_takes h

theorem membership_of_admits (htype : col.type ≠ .real) (hxs : ∀ x ∈ xs, col.type.Admits x)
    (kind : CollectionKind) (among : Bool) :
    NativeOperator.membership among (.column col) (kind.of xs) =
      .member (.column col) among (xs.map (Bind.mk .plain)) := by
  have hcollection : NativeOperator.collection (kind.of xs) = xs := by cases kind <;> rfl
  rw [NativeOperator.membership, hcollection]
  cases xs with
  | nil => rfl
  | cons x xs =>
    have hbeside : BindType.beside (Term.column col).type x = .plain :=
      beside_of_admits htype (hxs x List.mem_cons_self)
    rw [List.head?_cons, Option.map_some, Option.getD_some, hbeside]

/-- Comparing with null leaves membership open, unless another value settles it. -/
theorem memberOf_eq (hxs : ∀ x ∈ xs, t.Admits x) (hc : t.Holds c) (hfull : c ≠ .null) :
    Clause.memberOf c ((xs.map (Bind.mk .plain)).map fun b => b.cellOrNull.drawn (some t)) =
      foundTruth (xs.any (c.toValue.same ·)) (xs.any isNull) := by
  induction xs with
  | nil => rfl
  | cons x xs ih =>
    obtain ⟨hx, hxs⟩ := List.forall_mem_cons.mp hxs
    have hrest := ih hxs
    simp only [List.map_cons, Clause.memberOf, List.any_cons]
    rw [hrest]
    rcases hx with rfl | hx
    · have hopen : Clause.compareCells .eq c ((Bind.mk .plain Value.none).cellOrNull.drawn (some t)) =
          none := by
        cases t <;> cases c <;> rfl
      have hdiffers : c.toValue.same .none = false := by
        cases c with
        | null => exact absurd rfl hfull
        | _ => rfl
      have hnull : isNull .none = true := rfl
      rw [hopen, hdiffers, hnull, Bool.false_or, Bool.true_or]
      cases xs.any (c.toValue.same ·) <;> cases xs.any isNull <;> rfl
    · have hanswers : (Clause.compareCells .eq c ((Bind.mk .plain x).cellOrNull.drawn (some t))).Answers
          true (c.toValue.same x) := compareCells_answers hx hc fun _ => hfull
      have hpresent : isNull x = false := by
        cases x with
        | none => exact absurd hx.ne_none (by decide)
        | _ => rfl
      rw [hanswers.eq_some, hpresent, Bool.false_or]
      cases c.toValue.same x <;> cases xs.any (c.toValue.same ·) <;> cases xs.any isNull <;> rfl

theorem any_isNull_iff : xs.any isNull = true ↔ .none ∈ xs := by
  rw [List.any_eq_true]
  constructor
  · rintro ⟨x, hx, hnull⟩
    cases x with
    | none => exact hx
    | _ => cases hnull
  · exact fun h => ⟨.none, h, rfl⟩

/-! ## Both stores -/

/-- The predicate that asks whether a column is among a collection, or not. -/
def askMember (k : Key) (among : Bool) (v : Value) : Fields :=
  [(k, .map (testing (if among then .isIn else .notIn) v false))]

section

variable {schema : Schema} {db : Database} {m : Model} {k : Key} {v : Value}

theorem tablesSelect_askMember (hschema : schema.Sound) (hm : m ∈ schema) (hk : junction? k = none)
    (hcol : k.name?.bind m.column? = some col) (htype : col.type ≠ .real)
    (hcells : ∀ row ∈ db m.table, col.type.Holds (row col.stored) ∧ row col.stored ≠ .null)
    (hxs : ∀ x ∈ xs, col.type.Admits x) (kind : CollectionKind) (among : Bool) :
    TablesSelect schema db m (askMember k among (kind.of xs)) fun row =>
      if among then isMember col xs row else !(isMember col xs row || xs.any isNull) := by
  have happly : NativeOperator.standardApply (if among then .isIn else .notIn) (.column col)
      (kind.of xs) false = .ok (.member (.column col) among (xs.map (Bind.mk .plain))) := by
    rw [← membership_of_admits htype hxs kind among]
    cases among <;> rfl
  have hstorable : (Clause.member (.column col) among (xs.map (Bind.mk .plain))).Storable := by
    intro b hb
    obtain ⟨x, hx, rfl⟩ := List.mem_map.mp hb
    exact storable_of_admits (hxs x hx)
  have hmode : (if among then NativeKey.isIn else .notIn) ≠ .mode := by cases among <;> decide
  obtain ⟨clause, hclause, hbound, hselects⟩ :=
    compile_testing hschema hm hk hcol hmode (kind.fields?_of xs) happly hstorable
  refine ⟨clause, hclause, hbound, fun row hrow => ?_⟩
  obtain ⟨hholds, hfull⟩ := hcells row hrow
  have hfound : Clause.memberOf (row col.stored)
      ((xs.map (Bind.mk .plain)).map fun b => b.cellOrNull.drawn (some col.type)) =
        foundTruth (isMember col xs row) (xs.any isNull) := memberOf_eq hxs hholds hfull
  rw [hselects, Clause.selects, Clause.truthOf, Term.cell, Term.draws, hfound]
  dsimp only
  cases among <;> cases isMember col xs row <;> cases xs.any isNull <;> rfl

theorem objectsSelect_askMember (identity : Model → Row → Nat) (n : Nat) (hk : junction? k = none)
    (hcol : k.name?.bind m.column? = some col) (kind : CollectionKind) (xs : List Value) (among : Bool) :
    ObjectsSelect schema db identity n m (askMember k among (kind.of xs)) fun row =>
      (decide (kind ≠ .set) && isMember col xs row) == among := by
  intro row _
  obtain ⟨name, hname, hcolumn⟩ := Option.bind_eq_some_iff.mp hcol
  have hmode : (if among then NativeKey.isIn else .notIn) ≠ .mode := by cases among <;> decide
  have hamong : Predicate.among false (row col.stored).toValue (kind.of xs) =
      (decide (kind ≠ .set) && isMember col xs row) := by
    cases kind with
    | list | tuple => rfl
    | set => cases row col.stored <;> rfl
  rw [askMember, valueHolds_testing hk (get_graph_column hname hcolumn n row) hmode
    (kind.fields?_of xs)]
  dsimp only
  rw [← hamong]
  cases among with
  | true => exact congrArg Except.ok (beq_true _).symm
  | false => exact congrArg Except.ok (beq_false _).symm

theorem TablesSelect.others_iff
    (h : TablesSelect schema db m (askMember k false v) fun row => !(isMember col xs row || xs.any isNull)) :
    TablesSelect schema db m (askMember k false v) (fun row => !isMember col xs row) ↔
      .none ∉ xs ∨ ∀ row ∈ db m.table, isMember col xs row = true := by
  rw [h.iff_of, ← any_isNull_iff, Bool.not_eq_true]
  constructor
  · intro hsame
    refine or_iff_not_imp_left.mpr fun hnull row hrow => ?_
    have hrow := hsame row hrow
    simpa [hnull] using hrow
  · rintro (hnull | hall) row hrow
    · simp [hnull]
    · simp [hall row hrow]

theorem ObjectsSelect.members_iff {identity : Model → Row → Nat} {n : Nat}
    (h : ObjectsSelect schema db identity n m (askMember k among v)
      fun row => (decide (kind ≠ .set) && isMember col xs row) == among) :
    ObjectsSelect schema db identity n m (askMember k among v) (fun row => isMember col xs row == among) ↔
      kind ≠ .set ∨ ∀ row ∈ db m.table, isMember col xs row = false := by
  rw [h.iff_of]
  constructor
  · intro hsame
    refine or_iff_not_imp_left.mpr fun hset row hrow => ?_
    have hrow := hsame row hrow
    rw [decide_eq_false hset, Bool.false_and] at hrow
    cases hmember : isMember col xs row with
    | false => rfl
    | true => cases among <;> simp [hmember] at hrow
  · rintro (hkind | hnobody) row hrow
    · rw [decide_eq_true hkind, Bool.true_and]
    · rw [hnobody row hrow, Bool.and_false]

end

end Sql

open Sql

/-- **Membership in the two stores.** In a column of integers or texts that is never null, a database
selects exactly the members of a collection of whatever kind. What is no member it selects exactly if null
is not in the collection, or all are members; otherwise it selects nothing. Memory selects both exactly if
the collection is no set, or nothing is a member; of a set it selects nothing as a member. The stores agree
on lists and tuples, without null where what is no member is asked for. -/
theorem membership_exact_iff {schema : Schema} {db : Database} {m : Model} {col : Column} {k : Key}
    {xs : List Value} (identity : Model → Row → Nat) (n : Nat) (hschema : schema.Sound) (hm : m ∈ schema)
    (hk : junction? k = none) (hcol : k.name?.bind m.column? = some col) (htype : col.type ≠ .real)
    (hcells : ∀ row ∈ db m.table, col.type.Holds (row col.stored) ∧ row col.stored ≠ .null)
    (kind : CollectionKind) (hxs : ∀ x ∈ xs, col.type.Admits x) :
    TablesSelect schema db m (askMember k true (kind.of xs)) (isMember col xs) ∧
      (TablesSelect schema db m (askMember k false (kind.of xs)) (fun row => !isMember col xs row) ↔
        .none ∉ xs ∨ ∀ row ∈ db m.table, isMember col xs row = true) ∧
      (.none ∈ xs →
        TablesSelect schema db m (askMember k false (kind.of xs)) fun _ => false) ∧
      (∀ among, ObjectsSelect schema db identity n m (askMember k among (kind.of xs))
          (fun row => isMember col xs row == among) ↔
        kind ≠ .set ∨ ∀ row ∈ db m.table, isMember col xs row = false) ∧
      (kind = .set → ∀ among, ObjectsSelect schema db identity n m
        (askMember k among (kind.of xs)) fun _ => !among) ∧
      (kind ≠ .set → StoresAgree schema db identity n m (askMember k true (kind.of xs)) ∧
        (.none ∉ xs → StoresAgree schema db identity n m (askMember k false (kind.of xs)))) := by
  have htables := tablesSelect_askMember hschema hm hk hcol htype hcells hxs kind
  have hobjects : ∀ among, ObjectsSelect schema db identity n m (askMember k among (kind.of xs)) _ :=
    objectsSelect_askMember identity n hk hcol kind xs
  have hlisted (hkind : kind ≠ .set) (among : Bool) : ObjectsSelect schema db identity n m
      (askMember k among (kind.of xs)) fun row => isMember col xs row == among :=
    (hobjects among).members_iff.mpr (.inl hkind)
  refine ⟨htables true, (htables false).others_iff, fun hnull => ?_,
    fun among => (hobjects among).members_iff, fun hset among => ?_, fun hkind => ⟨?_, fun hnull => ?_⟩⟩
  · refine (htables false).iff_of.mpr fun row _ => ?_
    simp [any_isNull_iff.mpr hnull]
  · refine (hobjects among).iff_of.mpr fun row _ => ?_
    rw [decide_eq_false (not_not.mpr hset), Bool.false_and]
    cases among <;> rfl
  · refine TablesSelect.agree_of_objects hschema hm (htables true) ?_
    exact ((hlisted hkind true).iff_of).mpr fun row _ => beq_true _
  · refine TablesSelect.agree_of_objects hschema hm ((htables false).others_iff.mpr (.inl hnull)) ?_
    exact ((hlisted hkind false).iff_of).mpr fun row _ => beq_false _

/-! ## Users by age -/

open Sample

def ageColumn : Column := integerColumn "users" "age"

theorem users_have_ages : ∀ row ∈ database user.table,
    ageColumn.type.Holds (row ageColumn.stored) ∧ row ageColumn.stored ≠ .null := by
  decide

theorem admits_ages : ∀ x ∈ [Value.int 31, .none], ageColumn.type.Admits x := by
  refine List.forall_mem_cons.mpr ⟨.inr ⟨31, rfl, rfl⟩, List.forall_mem_singleton.mpr (.inl rfl)⟩

theorem membership_exact_users :
    TablesSelect schema database user (askMember (.text "age") true (.tuple [.int 31, .none]))
        (isMember ageColumn [.int 31, .none]) ∧
      StoresAgree schema database (fun _ _ => 0) 1 user
        (askMember (.text "age") true (.tuple [.int 31, .none])) := by
  obtain ⟨hmember, -, -, -, -, hagree⟩ := membership_exact_iff (fun _ _ => 0) 1 schema_sound
    (List.mem_cons_of_mem team List.mem_cons_self) (k := .text "age") rfl rfl (by decide)
    users_have_ages .tuple admits_ages
  exact ⟨hmember, (hagree (by decide)).1⟩

/-- **The failures.** Of two records memory finds none whose age is in a set that holds the age of the
first, and both as no member of it. Of ten users of whom nine are not 31 years old, a database finds none
whose age is neither that nor null. -/
theorem set_and_null_lose_members :
    (⟨[.map [(.text "age", .int 3)], .map [(.text "age", .int 7)]]⟩ : MemoryStore).count
        (.map (askMember (.text "age") true (.set [.int 3]))) = .ok 0 ∧
      (⟨[.map [(.text "age", .int 3)], .map [(.text "age", .int 7)]]⟩ : MemoryStore).count
        (.map (askMember (.text "age") false (.set [.int 3]))) = .ok 2 ∧
      (tables schema database user).count
        (.map (askMember (.text "age") false (.list [.int 31, .none]))) = .ok 0 ∧
      ((database user.table).filter fun row => !isMember ageColumn [.int 31, .none] row).length = 9 :=
  ⟨rfl, rfl, rfl, rfl⟩

end Listing
