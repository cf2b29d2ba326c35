import Listing.Proofs.Sql.Binding
import Listing.Proofs.Sql.Native
import Listing.Proofs.Value.Equality

/-!
# Comparing columns with operands

An integer column holds integers and takes 64-bit integers as operands, a text column holds and takes
texts. The test that a native key makes of such a column is the same in three values and on the value
that the cell holds, unless the cell is null. Then the open question stands for a no, which a negation
must not reach.
-/

namespace Listing

/-! ## Equal texts -/

theorem Value.compareRows_eq_iff {α : Type} {order : α → α → Ordering}
    (horder : ∀ x y, order x y = .eq ↔ x = y) {xs ys : List α} :
    compareRows order xs ys = .eq ↔ xs = ys := by
  induction xs generalizing ys with
  | nil => cases ys <;> simp [compareRows]
  | cons x xs ih =>
    cases ys with
    | nil => simp [compareRows]
    | cons y ys => rw [compareRows, Ordering.then_eq_eq, horder, ih, List.cons.injEq]

theorem Value.compareTexts_eq_iff {s t : String} : compareTexts s t = .eq ↔ s = t := by
  have hchar : ∀ c d : Char, compare c.toNat d.toNat = .eq ↔ c = d := by
    intro c d
    rw [Nat.compare_eq_eq]
    exact Char.toNat_inj
  rw [compareTexts, compareRows_eq_iff hchar, String.toList_inj]

open Predicate

namespace Sql

/-! ## Cells and operands -/

def ColumnType.Holds (t : ColumnType) (c : Cell) : Prop :=
  c = .null ∨
    match t with
    | .integer => ∃ n, c = .integer n
    | .text => ∃ s, c = .text s
    | .real => True

instance (t : ColumnType) (c : Cell) : Decidable (t.Holds c) :=
  match t, c with
  | .integer, .null | .text, .null => .isTrue (.inl rfl)
  | .integer, .integer n => .isTrue (.inr ⟨n, rfl⟩)
  | .text, .text s => .isTrue (.inr ⟨s, rfl⟩)
  | .real, _ => .isTrue (.inr trivial)
  | .integer, .real _ | .integer, .text _ | .integer, .blob _ | .text, .integer _ | .text, .real _
  | .text, .blob _ => .isFalse fun h => h.elim (fun h => nomatch h) fun ⟨_, h⟩ => nomatch h

/-- Whether a value is an operand for columns of a type. -/
def ColumnType.Takes (t : ColumnType) (v : Value) : Prop :=
  match t with
  | .integer => ∃ n, v = .int n ∧ fits n = true
  | .text => ∃ s, v.text? = some s
  | .real => False

theorem order_integer (m n : Int) : (Cell.integer m).order (.integer n) = compare m n := by
  have horder : (Cell.integer m).order (.integer n) =
      (Value.compareNumbers? (.inl ⟨m, 0⟩) (.inl ⟨n, 0⟩)).getD .eq := rfl
  rw [horder, Value.compareNumbers?_int]
  rfl

theorem ask_int (q : Comparison) (m n : Int) :
    Value.ask q (.int m) (.int n) = .ok (q.holds (compare m n)) := by
  have hscalars : Value.compareScalars? (.int m) (.int n) =
      some (Value.compareNumbers? (.inl ⟨m, 0⟩) (.inl ⟨n, 0⟩)) := rfl
  rw [Value.ask, hscalars, Value.compareNumbers?_int]
  · simp
  · simp
  · simp

/-- The cell that is bound for an operand compares with the cells of a column as the operand does with
their values. -/
structure ColumnType.Binds (t : ColumnType) (v : Value) (x : Cell) : Prop where
  cell : Bind.cell ⟨.plain, v⟩ = .ok x
  drawn : x.drawn (some t) = x
  order : ∀ c, t.Holds c → c ≠ .null → ∃ o, c.compare? x = some o ∧
    c.toValue.same v = (o == .eq) ∧ ∀ q, ordered q c.toValue v = q.holds o

theorem binds_int {n : Int} (h : fits n = true) : ColumnType.integer.Binds (.int n) (.integer n) where
  cell := by
    have hcell : Bind.cell ⟨.plain, .int n⟩ = Bind.store (.int n) := rfl
    rw [hcell, Bind.store, if_pos h]
  drawn := rfl
  order := by
    intro c hc hnull
    obtain ⟨m, rfl⟩ := hc.resolve_left hnull
    refine ⟨compare m n, congrArg some (order_integer m n), ?_, fun q => ?_⟩
    · rw [Cell.toValue, Value.same_int, Bool.eq_iff_iff, beq_iff_eq, beq_iff_eq, Int.compare_eq_eq]
    · rw [Cell.toValue, ordered, ask_int]
      · simp
      · simp

theorem binds_text {v : Value} {s : String} (h : v.text? = some s) :
    ColumnType.text.Binds v (.text s) where
  cell := by
    cases v with
    | text _ | operator _ | direction _ =>
      obtain rfl := Option.some.inj h
      rfl
    | _ => nomatch h
  drawn := rfl
  order := by
    intro c hc hnull
    obtain ⟨r, rfl⟩ := hc.resolve_left hnull
    have hsame : (Value.text r).same v = (r == s) := by
      cases v with
      | text _ | operator _ | direction _ =>
        obtain rfl := Option.some.inj h
        rfl
      | _ => nomatch h
    have hordered : ∀ q, ordered q (.text r) v = q.holds (Value.compareTexts r s) := by
      intro q
      cases v with
      | text _ | operator _ | direction _ =>
        obtain rfl := Option.some.inj h
        rfl
      | _ => nomatch h
    refine ⟨Value.compareTexts r s, rfl, ?_, hordered⟩
    rw [Cell.toValue, hsame, Bool.eq_iff_iff, beq_iff_eq, beq_iff_eq, Value.compareTexts_eq_iff]

theorem ColumnType.Takes.exists_binds {t : ColumnType} {v : Value} (h : t.Takes v) :
    ∃ x, t.Binds v x := by
  cases t with
  | integer =>
    obtain ⟨n, rfl, hn⟩ := h
    exact ⟨_, binds_int hn⟩
  | text =>
    obtain ⟨s, hs⟩ := h
    exact ⟨_, binds_text hs⟩
  | real => exact h.elim

theorem ColumnType.Takes.ne_none {t : ColumnType} {v : Value} (h : t.Takes v) :
    Value.none.same v = false := by
  cases t with
  | integer =>
    obtain ⟨n, rfl, -⟩ := h
    rfl
  | text =>
    obtain ⟨s, hs⟩ := h
    cases v with
    | text _ | operator _ | direction _ => rfl
    | _ => nomatch hs
  | real => exact h.elim

theorem ColumnType.not_takes_bool (t : ColumnType) (b : Bool) : ¬ t.Takes (.bool b) := by
  cases t with
  | integer => exact fun ⟨_, h, _⟩ => nomatch h
  | text => exact fun ⟨_, h⟩ => nomatch h
  | real => exact id

theorem ColumnType.Takes.storable {t : ColumnType} {v : Value} (h : t.Takes v) :
    Bind.Storable ⟨.plain, v⟩ := by
  obtain ⟨x, hx⟩ := h.exists_binds
  exact ⟨x, hx.cell⟩

/-! ## Tests -/

/-- A test of a cell by a native key, and whether its answer is negated: by what stands around it or by
the key itself. -/
structure Reading where
  negated : Bool
  key : NativeKey
  cell : Cell

/-- Whether the answer of a test does not hang on what null leaves open: no negated test but a null
check reads a null. -/
def Reading.Settled (r : Reading) : Prop := r.negated = true → r.key ≠ .is → r.cell ≠ .null

end Sql

namespace NativeKey

/-- Whether a key asks for the opposite of a comparison. -/
def negates : NativeKey → Bool
  | .not | .notIn => true
  | _ => false

/-- The comparison that a key with a single operand asks for. -/
def sign? : NativeKey → Option Sql.Sign
  | .equals => some .eq
  | .not => some .ne
  | .gt => some .gt
  | .gte => some .ge
  | .lt => some .lt
  | .lte => some .le
  | _ => none

/-- Whether a key compares columns of a type with an operand, or checks for null. -/
def Compares (key : NativeKey) (t : Sql.ColumnType) (v : Value) : Prop :=
  match key with
  | .equals | .not | .gt | .gte | .lt | .lte => t.Takes v
  | .isIn | .notIn => ∃ xs, v = .list xs ∧ ∀ x ∈ xs, t.Takes x
  | .is => Predicate.nullCheck v ≠ .other
  | .contains | .startsWith | .endsWith | .mode => False

theorem Compares.ne_mode {key : NativeKey} {t : Sql.ColumnType} {v : Value} (h : key.Compares t v) :
    key ≠ .mode := by
  rintro rfl
  exact h

end NativeKey

namespace Sql

/-- Whether a value meets a comparison with another. -/
def Sign.meets (sign : Sign) (a v : Value) : Bool :=
  match sign with
  | .eq => a.same v
  | .ne => !a.same v
  | .lt => ordered .lt a v
  | .le => ordered .le a v
  | .gt => ordered .gt a v
  | .ge => ordered .ge a v

theorem Sign.meets_of_order {sign : Sign} {a v : Value} {o : Ordering} (hsame : a.same v = (o == .eq))
    (hordered : ∀ q, ordered q a v = q.holds o) : sign.meets a v = sign.holds o := by
  cases sign <;> simp only [Sign.meets, hsame, hordered] <;> cases o <;> rfl

section

variable {col : Column} {v : Value} {key : NativeKey} {sign : Sign} {negated : Bool}

theorem compareCells_answers {t : ColumnType} {c : Cell} (hv : t.Takes v) (hc : t.Holds c)
    (hnull : negated = true ∨ sign = .ne → c ≠ .null) :
    (Clause.compareCells sign c ((Bind.mk .plain v).cellOrNull.drawn (some t))).Answers negated
      (sign.meets c.toValue v) := by
  obtain ⟨x, hx⟩ := hv.exists_binds
  have hcell : (Bind.mk .plain v).cellOrNull = x := by
    rw [Bind.cellOrNull, hx.cell]
    rfl
  rw [hcell, hx.drawn]
  by_cases hnone : c = .null
  · subst hnone
    have hplain : negated = false := by
      cases negated with
      | false => rfl
      | true => exact absurd rfl (hnull (.inl rfl))
    have hmeets : sign.meets .none v = false := by
      cases sign with
      | eq => exact hv.ne_none
      | ne => exact absurd rfl (hnull (.inr rfl))
      | _ => rfl
    exact .inr ⟨hplain, rfl, hmeets⟩
  · obtain ⟨o, horder, hsame, hordered⟩ := hx.order c hc hnone
    refine .of_eq ?_
    rw [Clause.compareCells, horder, Option.map_some, Sign.meets_of_order hsame hordered]

theorem beside_of_takes {t : ColumnType} (hv : t.Takes v) : BindType.beside t v = .plain := by
  cases t with
  | integer =>
    obtain ⟨n, rfl, -⟩ := hv
    rfl
  | text =>
    obtain ⟨s, hs⟩ := hv
    cases v with
    | text _ | operator _ | direction _ => rfl
    | _ => nomatch hs
  | real => exact hv.elim

theorem comparison_of_takes (hv : col.type.Takes v) (sign : Sign) :
    NativeOperator.comparison false (.column col) sign v =
      .ok (.compare false (.column col) sign ⟨.plain, v⟩) := by
  have hbeside : BindType.beside (Term.column col).type v = .plain := beside_of_takes hv
  rw [← hbeside]
  cases v with
  | none => exact absurd hv.ne_none (by decide)
  | bool b => exact (col.type.not_takes_bool b hv).elim
  | _ => rfl

/-! ### Single operands -/

theorem standardApply_of_sign (hkey : key.sign? = some sign) (hv : col.type.Takes v) :
    NativeOperator.standardApply key (.column col) v false =
      .ok (.compare false (.column col) sign ⟨.plain, v⟩) := by
  have hequality : ∀ sign, NativeOperator.equality sign (.column col) v false =
      NativeOperator.comparison false (.column col) sign v := by
    intro sign
    rw [NativeOperator.equality]
    split <;> rfl
  rw [← comparison_of_takes hv]
  cases key with
  | equals | not =>
    obtain rfl := Option.some.inj hkey
    exact hequality _
  | gt | gte | lt | lte =>
    obtain rfl := Option.some.inj hkey
    rfl
  | _ => nomatch hkey

theorem test_of_sign (hkey : key.sign? = some sign) (a v : Value) :
    test false a key v = .ok (sign.meets a v) := by
  cases key with
  | equals | not | gt | gte | lt | lte =>
    obtain rfl := Option.some.inj hkey
    rfl
  | _ => nomatch hkey

theorem ne_is_of_sign (hkey : key.sign? = some sign) : key ≠ .is := by
  rintro rfl
  nomatch hkey

theorem negates_of_sign (hkey : key.sign? = some sign) : key.negates = decide (sign = .ne) := by
  cases key with
  | equals | not | gt | gte | lt | lte =>
    obtain rfl := Option.some.inj hkey
    rfl
  | _ => nomatch hkey

/-! ### Collections -/

theorem membership_of_takes {xs : List Value} (hxs : ∀ x ∈ xs, col.type.Takes x) (among : Bool) :
    NativeOperator.membership among (.column col) (.list xs) =
      .member (.column col) among (xs.map (Bind.mk .plain)) := by
  cases xs with
  | nil => rfl
  | cons x xs =>
    have hbeside : BindType.beside (Term.column col).type x = .plain :=
      beside_of_takes (hxs x List.mem_cons_self)
    have hmembership : NativeOperator.membership among (.column col) (.list (x :: xs)) =
        .member (.column col) among
          ((x :: xs).map fun y => ⟨BindType.beside (Term.column col).type x, y⟩) := rfl
    rw [hmembership, hbeside]

theorem memberOf_answers {t : ColumnType} {c : Cell} {xs : List Value} (hxs : ∀ x ∈ xs, t.Takes x)
    (hc : t.Holds c) (hnull : negated = true → c ≠ .null) :
    (Clause.memberOf c ((xs.map (Bind.mk .plain)).map fun b => b.cellOrNull.drawn (some t))).Answers
      negated (xs.any (equal false c.toValue)) := by
  induction xs with
  | nil => exact .of_eq rfl
  | cons x xs ih =>
    obtain ⟨hx, hxs⟩ := List.forall_mem_cons.mp hxs
    refine Truth.Answers.or (compareCells_answers hx hc ?_) (ih hxs)
    rintro (h | h)
    · exact hnull h
    · nomatch h

theorem storable_member {among : Bool} {xs : List Value} (hxs : ∀ x ∈ xs, col.type.Takes x) :
    (Clause.member (.column col) among (xs.map (Bind.mk .plain))).Storable := by
  intro b hb
  obtain ⟨x, hx, rfl⟩ := List.mem_map.mp hb
  exact (hxs x hx).storable

/-! ### Each key -/

/-- Whether a clause asks of a column what a native key and its operand ask of the value that the column
holds. -/
def Clause.Asks (c : Clause) (col : Column) (key : NativeKey) (v : Value) : Prop :=
  c.Storable ∧ ∀ db row negated, col.type.Holds (row col.stored) →
    Reading.Settled ⟨negated || key.negates, key, row col.stored⟩ →
    ∃ b, test false (row col.stored).toValue key v = .ok b ∧ (c.truthOf db row).Answers negated b

theorem asks_compare (hkey : key.sign? = some sign) (hv : col.type.Takes v) :
    (Clause.compare false (.column col) sign ⟨.plain, v⟩).Asks col key v := by
  refine ⟨fun b hb => ?_, fun db row negated hc hsettled => ?_⟩
  · obtain rfl := List.mem_singleton.mp hb
    exact hv.storable
  · refine ⟨_, test_of_sign hkey _ _, compareCells_answers hv hc fun hneg => ?_⟩
    refine hsettled ?_ (ne_is_of_sign hkey)
    rw [negates_of_sign hkey, Bool.or_eq_true, decide_eq_true_iff]
    exact hneg

theorem asks_member {xs : List Value} (hxs : ∀ x ∈ xs, col.type.Takes x) :
    (Clause.member (.column col) true (xs.map (Bind.mk .plain))).Asks col .isIn (.list xs) := by
  refine ⟨storable_member hxs, fun db row negated hc hsettled => ⟨_, rfl, ?_⟩⟩
  refine memberOf_answers hxs hc fun hneg => hsettled ?_ (fun h => nomatch h)
  rw [hneg]
  rfl

theorem asks_not_member {xs : List Value} (hxs : ∀ x ∈ xs, col.type.Takes x) :
    (Clause.member (.column col) false (xs.map (Bind.mk .plain))).Asks col .notIn (.list xs) := by
  refine ⟨storable_member hxs, fun db row negated hc hsettled => ⟨_, rfl, ?_⟩⟩
  have hfull : row col.stored ≠ .null := hsettled (Bool.or_true _) fun h => nomatch h
  exact (memberOf_answers hxs hc fun _ => hfull).not

theorem asks_null (isNull : Bool)
    (hcheck : nullCheck v = if isNull then .null else .present) :
    (Clause.null (.column col) isNull).Asks col .is v := by
  have hisNull : ∀ c : Cell, Predicate.isNull c.toValue = c.isNull := by
    intro c
    cases c <;> rfl
  refine ⟨fun b hb => (nomatch hb), fun db row negated _ _ => ⟨_, rfl, .of_eq ?_⟩⟩
  rw [hcheck, Clause.truthOf]
  cases isNull with
  | true => simp [hisNull, Term.cell]
  | false => simp [hisNull, Term.cell]

theorem exists_asks (h : key.Compares col.type v) :
    ∃ c, NativeOperator.standardApply key (.column col) v false = .ok c ∧ c.Asks col key v := by
  cases hsign : key.sign? with
  | some sign =>
    have hv : col.type.Takes v := by
      cases key with
      | equals | not | gt | gte | lt | lte => exact h
      | _ => cases hsign
    exact ⟨_, standardApply_of_sign hsign hv, asks_compare hsign hv⟩
  | none =>
    cases key with
    | isIn =>
      obtain ⟨xs, rfl, hxs⟩ := h
      exact ⟨_, congrArg Except.ok (membership_of_takes hxs true), asks_member hxs⟩
    | notIn =>
      obtain ⟨xs, rfl, hxs⟩ := h
      exact ⟨_, congrArg Except.ok (membership_of_takes hxs false), asks_not_member hxs⟩
    | is =>
      rw [NativeOperator.standardApply]
      cases hcheck : nullCheck v with
      | null => exact ⟨_, rfl, asks_null true hcheck⟩
      | present => exact ⟨_, rfl, asks_null false hcheck⟩
      | other => exact absurd hcheck h
    | contains | startsWith | endsWith | mode => exact h.elim
    | _ => cases hsign

end

end Sql
end Listing
