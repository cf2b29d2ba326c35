import Listing.Proofs.Sql.Comparison

/-!
# Conditions that compare columns

A condition of comparisons, null checks and negated conditions, without a mode. It has a clause whose
values can be bound, and the clause answers as the condition does on the value of the column, as long
as no negated comparison reads a null.
-/

namespace Listing.Sql

open Outcome Predicate

/-- A condition on a column of a type that compares and checks for null. -/
inductive ComparingCondition (t : ColumnType) : Fields → Prop
  | nil : ComparingCondition t []
  | test {k : Key} {key : NativeKey} {v : Value} {rest : Fields} :
      nativeKey? k = some key → key.Compares t v → ComparingCondition t rest →
      ComparingCondition t ((k, v) :: rest)
  | negation {k : Key} {es rest : Fields} :
      nativeKey? k = some .not → ComparingCondition t es → ComparingCondition t rest →
      ComparingCondition t ((k, .map es) :: rest)

mutual

def conditionReadings (c : Cell) (negated : Bool) : List (Key × Value) → List Reading
  | [] => []
  | (k, v) :: rest => entryReadings c negated k v ++ conditionReadings c negated rest
termination_by structural es => es

/-- The tests that one entry of a condition makes of a cell; a mapping is negated. -/
def entryReadings (c : Cell) (negated : Bool) (k : Key) : Value → List Reading
  | .map es => conditionReadings c true es
  | _ => (nativeKey? k).toList.map fun key => ⟨negated || key.negates, key, c⟩
termination_by structural v => v

end

variable {t : ColumnType} {es : Fields}

theorem ComparingCondition.nativeKey (h : ComparingCondition t es) :
    ∀ e ∈ es, ∃ key : NativeKey, nativeKey? e.1 = some key ∧ key ≠ .mode := by
  induction h with
  | nil => exact fun e he => nomatch he
  | test hk hv _ ih => exact List.forall_mem_cons.mpr ⟨⟨_, hk, hv.ne_mode⟩, ih⟩
  | negation hk _ _ _ ih => exact List.forall_mem_cons.mpr ⟨⟨_, hk, fun h => nomatch h⟩, ih⟩

theorem ComparingCondition.isNativeCondition (h : ComparingCondition t es) :
    isNativeCondition es = true := by
  rw [Predicate.isNativeCondition, List.all_eq_true]
  intro e he
  obtain ⟨key, hkey, -⟩ := h.nativeKey e he
  have hnative : isNativeKey e.1 = true := by
    rw [isNativeKey, hkey]
    rfl
  exact hnative

theorem ComparingCondition.isInsensitive (h : ComparingCondition t es) : isInsensitive es = false := by
  have hfind : es.find NativeKey.mode.name = none := by
    rw [Entries.find_eq_none_iff]
    intro e he hname
    obtain ⟨key, hkey, hmode⟩ := h.nativeKey e he
    rw [← nativeKey?_eq_some, hkey] at hname
    exact hmode (Option.some.inj hname)
  rw [Predicate.isInsensitive, hfind]
  rfl

/-! ## Entries -/

section

variable {m : Model} {term : Term} {insensitive : Bool} {k : Key} {key : NativeKey} {v : Value}

/-! An operand of a comparison is no mapping, which would be taken for a condition. -/

theorem conditionPart_of_operand {registry : Registry} (hv : v.fields? = none) :
    conditionPart registry m term insensitive k v =
      applyOperator registry m term insensitive k v := by
  cases v with
  | map es => nomatch hv
  | _ => rfl

theorem passesEntry_of_operand (hv : v.fields? = none) (a : Value) :
    passesEntry insensitive a key v = test insensitive a key v := by
  cases v with
  | map es => nomatch hv
  | _ => rfl

theorem fields?_of_compares (h : key.Compares t v) : v.fields? = none := by
  have htakes : ∀ es, ¬ t.Takes (.map es) := by
    intro es
    cases t with
    | integer => exact fun ⟨_, h, _⟩ => nomatch h
    | text => exact fun ⟨_, h⟩ => nomatch h
    | real => exact id
  cases v with
  | map es =>
    cases key with
    | equals | not | gt | gte | lt | lte => exact absurd h (htakes es)
    | isIn | notIn =>
      obtain ⟨_, h, -⟩ := h
      nomatch h
    | is => exact absurd rfl h
    | contains | startsWith | endsWith | mode => exact h.elim
  | _ => rfl

theorem entryReadings_of_compares (hk : nativeKey? k = some key) (hv : key.Compares t v) (c : Cell)
    (negated : Bool) : entryReadings c negated k v = [⟨negated || key.negates, key, c⟩] := by
  have hreadings : (nativeKey? k).toList.map (fun key => Reading.mk (negated || key.negates) key c) =
      [⟨negated || key.negates, key, c⟩] := by
    rw [hk]
    rfl
  cases v with
  | map es => nomatch fields?_of_compares hv
  | _ => exact hreadings

theorem conditionParts_cons {rest : Fields} {p : Conjunct} {ps : List Conjunct}
    (hk : nativeKey? k = some key) (hmode : key ≠ .mode)
    (hp : conditionPart .standard m term insensitive k v = .ok p)
    (hps : conditionParts .standard m term insensitive rest = .ok ps) :
    conditionParts .standard m term insensitive ((k, v) :: rest) = .ok (p :: ps) := by
  have hplain : isModeKey k = false := by
    rw [isModeKey_eq (nativeKey?_eq_some.mp hk)]
    exact decide_eq_false hmode
  rw [conditionParts, hplain, hp, hps]
  rfl

theorem passes_cons {a : Value} {rest : Fields} {b c : Bool} (hk : nativeKey? k = some key)
    (hentry : passesEntry insensitive a key v = .ok b) (hrest : passes insensitive a rest = .ok c) :
    passes insensitive a ((k, v) :: rest) = .ok (b && c) := by
  rw [passes, hk]
  dsimp only
  rw [hentry]
  cases b with
  | false => rfl
  | true => exact hrest

end

/-! ## Conditions -/

theorem conditionParts_answers (m : Model) {col : Column} (h : ComparingCondition col.type es) :
    ∃ parts, conditionParts .standard m (.column col) false es = .ok parts ∧
      (∀ p ∈ parts, p.Storable) ∧ ∀ db row negated, col.type.Holds (row col.stored) →
        (∀ r ∈ conditionReadings (row col.stored) negated es, r.Settled) →
        ∃ b, passes false (row col.stored).toValue es = .ok b ∧
          (Truth.all (parts.map (Conjunct.truthOf db row))).Answers negated b := by
  induction h with
  | nil => exact ⟨[], rfl, by simp, fun _ _ _ _ _ => ⟨true, rfl, .of_eq rfl⟩⟩
  | @test k key v rest hk hv _ ih =>
    obtain ⟨ps, hps, hstorable, hanswers⟩ := ih
    obtain ⟨c, hc, hcstorable, hasks⟩ := exists_asks hv
    have hpart : conditionPart .standard m (.column col) false k v = .ok (.clause c) := by
      rw [conditionPart_of_operand (fields?_of_compares hv),
        applyOperator_standard (nativeKey?_eq_some.mp hk) hv.ne_mode, hc]
      rfl
    refine ⟨.clause c :: ps, conditionParts_cons hk hv.ne_mode hpart hps,
      List.forall_mem_cons.mpr ⟨hcstorable, hstorable⟩, fun db row negated hcell hsettled => ?_⟩
    rw [conditionReadings, entryReadings_of_compares hk hv, List.singleton_append,
      List.forall_mem_cons] at hsettled
    obtain ⟨b, hb, hanswer⟩ := hasks db row negated hcell hsettled.1
    obtain ⟨bs, hbs, hanswers⟩ := hanswers db row negated hcell hsettled.2
    have hentry : passesEntry false (row col.stored).toValue key v = .ok b := by
      rw [passesEntry_of_operand (fields?_of_compares hv), hb]
    exact ⟨b && bs, passes_cons hk hentry hbs, hanswer.and hanswers⟩
  | @negation k es rest hk hes _ ihes ih =>
    obtain ⟨qs, hqs, hqstorable, hqanswers⟩ := ihes
    obtain ⟨ps, hps, hstorable, hanswers⟩ := ih
    have hpart : conditionPart .standard m (.column col) false k (.map es) =
        .ok (Clause.conjunction qs).negate := by
      rw [conditionPart, isNotKey_eq (nativeKey?_eq_some.mp hk), hes.isInsensitive, hqs]
      rfl
    refine ⟨_, conditionParts_cons hk (fun h => nomatch h) hpart hps, ?_,
      fun db row negated hcell hsettled => ?_⟩
    · exact List.forall_mem_cons.mpr
        ⟨Clause.storable_negate (Clause.storable_conjunction hqstorable), hstorable⟩
    · rw [conditionReadings, List.forall_mem_append] at hsettled
      -- below a negation the values are negated, whatever stands around it
      obtain ⟨q, hq, hqanswer⟩ := hqanswers db row true hcell hsettled.1
      obtain ⟨b, hb, hanswer⟩ := hanswers db row negated hcell hsettled.2
      have hentry : passesEntry false (row col.stored).toValue .not (.map es) = .ok !q := by
        rw [passesEntry, if_pos ⟨rfl, hes.isNativeCondition⟩, hes.isInsensitive, hq]
        rfl
      refine ⟨!q && b, passes_cons hk hentry hb, ?_⟩
      rw [List.map_cons, Truth.all_cons, Clause.truthOf_negate, Clause.truthOf_conjunction]
      exact hqanswer.not.and hanswer

end Listing.Sql
