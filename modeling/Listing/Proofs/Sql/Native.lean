import Listing.Proofs.Entries
import Listing.Proofs.Operator
import Listing.Proofs.Outcome
import Listing.Sql.Compile

/-!
# Native conditions over a database

Which standard operator a key names, of which operands it makes a clause, and which conditions have
one. An order needs an operand that has one, a search one that has a text.
-/

namespace Listing

/-- Whether a clause can be made of a native key and an operand: an order needs something that has one,
a search a text. -/
def NativeKey.Takes (key : NativeKey) (v : Value) : Prop :=
  match key with
  | .gt | .gte | .lt | .lte =>
    match v with
    | .none | .bool _ => False
    | _ => True
  | .contains | .startsWith | .endsWith => ∃ s, v.display = .ok s
  | _ => True

theorem Predicate.nativeKey?_eq_some {k : Key} {key : NativeKey} :
    Predicate.nativeKey? k = some key ↔ k.name? = some key.name := by
  rw [Predicate.nativeKey?, Option.bind_eq_some_iff]
  simp only [NativeKey.ofName?_eq_some, exists_eq_right]

namespace Sql

open Outcome

/-! ## Operators -/

namespace NativeOperator

theorem exists_comparison {sign : Sign} (hsign : sign = .eq ∨ sign = .ne) (lowered : Bool) (t : Term)
    (v : Value) : ∃ c, comparison lowered t sign v = .ok c := by
  rcases hsign with rfl | rfl
  · cases v <;> exact ⟨_, rfl⟩
  · cases v <;> exact ⟨_, rfl⟩

theorem exists_equality {sign : Sign} (hsign : sign = .eq ∨ sign = .ne) (t : Term) (v : Value)
    (insensitive : Bool) : ∃ c, equality sign t v insensitive = .ok c := by
  unfold equality
  split
  · split
    · exact exists_comparison hsign _ _ _
    · exact exists_comparison hsign _ _ _
  · exact exists_comparison hsign _ _ _

theorem comparison_ok_iff {sign : Sign} (hsign : comparesEquality sign = none) {lowered : Bool}
    {t : Term} {v : Value} :
    (∃ c, comparison lowered t sign v = .ok c) ↔ NativeKey.Takes .gt v := by
  unfold comparison
  rw [hsign]
  cases v <;> simp [NativeKey.Takes]

theorem search_ok_iff {place : Place} {t : Term} {v : Value} {insensitive : Bool} :
    (∃ c, search place t v insensitive = .ok c) ↔ ∃ s, v.display = .ok s :=
  exists_bind_pure_eq_ok

theorem standardApply_ok_iff (key : NativeKey) {t : Term} {v : Value} {insensitive : Bool} :
    (∃ c, standardApply key t v insensitive = .ok c) ↔ key.Takes v := by
  cases key with
  | equals => exact iff_of_true (exists_equality (.inl rfl) t v insensitive) trivial
  | not => exact iff_of_true (exists_equality (.inr rfl) t v insensitive) trivial
  | gt | gte | lt | lte => exact comparison_ok_iff rfl
  | contains | startsWith | endsWith => exact search_ok_iff
  | is =>
    refine iff_of_true ?_ trivial
    rw [standardApply]
    cases Predicate.nullCheck v with
    | null => exact ⟨_, rfl⟩
    | present => exact ⟨_, rfl⟩
    | other => exact exists_comparison (.inl rfl) _ _ _
  | isIn | notIn | mode => exact iff_of_true ⟨_, rfl⟩ trivial

end NativeOperator

theorem Registry.get?_standard (name : String) :
    Registry.standard.get? name =
      (Registry.standardKeys.find? (·.name == name)).map NativeOperator.ofKey := by
  have hoperators : Registry.standard.operators = Registry.standardKeys.map NativeOperator.ofKey := rfl
  rw [Registry.get?, hoperators, List.find?_map]
  rfl

theorem Registry.find?_standardKeys {name : String} {key : NativeKey} :
    Registry.standardKeys.find? (·.name == name) = some key ↔ key ≠ .mode ∧ name = key.name := by
  constructor
  · intro h
    have hname := List.find?_some h
    refine ⟨?_, (beq_iff_eq.mp hname).symm⟩
    rintro rfl
    exact absurd (List.mem_of_find?_eq_some h) (by decide)
  · rintro ⟨hmode, rfl⟩
    cases key with
    | mode => exact absurd rfl hmode
    | _ => rfl

theorem applyOperator_standard {m : Model} {t : Term} {insensitive : Bool} {k : Key} {v : Value}
    {key : NativeKey} (hk : k.name? = some key.name) (hmode : key ≠ .mode) :
    applyOperator .standard m t insensitive k v =
      (do return .clause (← NativeOperator.standardApply key t v insensitive)) := by
  rw [applyOperator, hk, Option.bind_some, Registry.get?_standard,
    Registry.find?_standardKeys.mpr ⟨hmode, rfl⟩]
  rfl

theorem isModeKey_eq {k : Key} {key : NativeKey} (hk : k.name? = some key.name) :
    isModeKey k = decide (key = .mode) := by
  rw [isModeKey, Key.same_name, hk]
  cases key <;> rfl

theorem isNotKey_eq {k : Key} {key : NativeKey} (hk : k.name? = some key.name) :
    isNotKey k = decide (key = .not) := by
  rw [isNotKey, Key.same_name, hk]
  cases key <;> rfl

/-- Whether the standard operator of a name makes a clause of an operand. -/
def Taken (k : Key) (v : Value) : Prop :=
  ∃ key : NativeKey, key ≠ .mode ∧ k.name? = some key.name ∧ key.Takes v

theorem applyOperator_ok_iff {m : Model} {t : Term} {insensitive : Bool} {k : Key} {v : Value} :
    (∃ part, applyOperator .standard m t insensitive k v = .ok part) ↔ Taken k v := by
  unfold applyOperator Taken
  cases hname : k.name? with
  | none => simp
  | some name =>
    rw [Option.bind_some, Registry.get?_standard]
    cases hfind : Registry.standardKeys.find? (·.name == name) with
    | none =>
      refine iff_of_false (fun ⟨_, h⟩ => nomatch h) ?_
      rintro ⟨key, hmode, hkey, -⟩
      rw [Registry.find?_standardKeys.mpr ⟨hmode, Option.some.inj hkey⟩] at hfind
      nomatch hfind
    | some key =>
      obtain ⟨hmode, rfl⟩ := Registry.find?_standardKeys.mp hfind
      rw [Option.map_some]
      dsimp only
      rw [exists_bind_pure_eq_ok, NativeOperator.ofKey, NativeOperator.standardApply_ok_iff]
      constructor
      · intro h
        exact ⟨key, hmode, rfl, h⟩
      · rintro ⟨key', hmode', hkey', h⟩
        have hsame : key' = key := by
          have hfind' := Registry.find?_standardKeys.mpr ⟨hmode', Option.some.inj hkey'⟩
          exact Option.some.inj (hfind'.symm.trans hfind)
        rwa [hsame] at h

/-! ## Conditions -/

mutual

/-- Whether a clause can be made of a native condition: of each entry, the mode apart. -/
def NativeTaken : List (Key × Value) → Prop
  | [] => True
  | (k, v) :: rest => (isModeKey k = false → NativeEntryTaken k v) ∧ NativeTaken rest
termination_by structural es => es

/-- Whether a clause can be made of an entry of a native condition; a mapping under `not` is one. -/
def NativeEntryTaken (k : Key) : Value → Prop
  | .map es => if isNotKey k then NativeTaken es else Taken k (.map es)
  | v => Taken k v
termination_by structural v => v

end

mutual

theorem conditionParts_ok_iff (m : Model) (t : Term) (insensitive : Bool) : ∀ es,
    (∃ parts, conditionParts .standard m t insensitive es = .ok parts) ↔ NativeTaken es
  | [] => iff_of_true ⟨[], rfl⟩ trivial
  | (k, v) :: rest => by
    rw [conditionParts, NativeTaken, ← conditionParts_ok_iff m t insensitive rest]
    cases isModeKey k with
    | true =>
      simp only [if_true]
      exact exists_bind_bind_pure_eq_ok.trans
        (and_congr_left fun _ => iff_of_true ⟨none, rfl⟩ (fun h => nomatch h))
    | false =>
      simp only [Bool.false_eq_true, if_false, forall_const]
      refine exists_bind_bind_pure_eq_ok.trans (and_congr_left fun _ => ?_)
      rw [← conditionPart_ok_iff m t insensitive k v]
      cases conditionPart .standard m t insensitive k v with
      | error e => exact iff_of_false (fun ⟨_, h⟩ => nomatch h) (fun ⟨_, h⟩ => nomatch h)
      | ok part => exact iff_of_true ⟨some part, rfl⟩ ⟨part, rfl⟩

theorem conditionPart_ok_iff (m : Model) (t : Term) (insensitive : Bool) (k : Key) : ∀ v,
    (∃ part, conditionPart .standard m t insensitive k v = .ok part) ↔ NativeEntryTaken k v
  | .map es => by
    rw [conditionPart, NativeEntryTaken]
    split
    · rw [exists_bind_pure_eq_ok]
      exact conditionParts_ok_iff m t _ es
    · exact applyOperator_ok_iff
  | .none | .bool _ | .int _ | .float _ | .text _ | .bytes _ | .operator _ | .direction _ | .list _
  | .tuple _ | .set _ | .object _ _ | .items _ | .rule _ | .policy _ => applyOperator_ok_iff

end

theorem nativeTaken_iff {es : Fields} :
    NativeTaken es ↔ ∀ e ∈ es, isModeKey e.1 = false → NativeEntryTaken e.1 e.2 := by
  induction es with
  | nil => simp [NativeTaken]
  | cons e es ih => rw [NativeTaken, ih, List.forall_mem_cons]

theorem taken_text_iff {key : NativeKey} (hmode : key ≠ .mode) {v : Value} :
    Taken (.text key.name) v ↔ key.Takes v := by
  constructor
  · rintro ⟨key', hmode', hname, h⟩
    have hfind := Registry.find?_standardKeys.mpr ⟨hmode', Option.some.inj hname⟩
    have hfind' := Registry.find?_standardKeys.mpr ⟨hmode, rfl⟩
    rwa [Option.some.inj (hfind'.symm.trans hfind)]
  · intro h
    exact ⟨key, hmode, rfl, h⟩

theorem nativeEntryTaken_of_ne_not {key : NativeKey} (hmode : key ≠ .mode) (hnot : key ≠ .not)
    {v : Value} : NativeEntryTaken (.text key.name) v ↔ key.Takes v := by
  have hkey : isNotKey (.text key.name) = false := by
    cases key with
    | not => exact absurd rfl hnot
    | _ => rfl
  cases v with
  | map es => rw [NativeEntryTaken, hkey, if_neg Bool.false_ne_true, taken_text_iff hmode]
  | _ => exact taken_text_iff hmode

theorem nativeEntryTaken_not_map {es : Fields} :
    NativeEntryTaken (.text NativeKey.not.name) (.map es) ↔ NativeTaken es := by
  rw [NativeEntryTaken, if_pos (by decide)]

theorem nativeEntryTaken_not_of_scalar {v : Value} (h : v.fields? = none) :
    NativeEntryTaken (.text NativeKey.not.name) v := by
  have htaken : Taken (.text NativeKey.not.name) v := (taken_text_iff (by decide)).mpr trivial
  cases v with
  | map es => simp [Value.fields?] at h
  | _ => exact htaken

/-! ## Fields -/

section

variable {schema : Schema} {registry : Registry} {m : Model} {k : Key}

open Predicate

theorem predicateParts_ok_iff {es : Fields} :
    (∃ parts, predicateParts schema registry m es = .ok parts) ↔
      ∀ e ∈ es, ∃ part, predicatePart schema registry m e.1 e.2 = .ok part := by
  induction es with
  | nil => exact iff_of_true ⟨[], rfl⟩ (fun e he => nomatch he)
  | cons e es ih =>
    obtain ⟨k, v⟩ := e
    rw [predicateParts, exists_bind_bind_pure_eq_ok, ih, List.forall_mem_cons]

theorem predicateAll_ok_iff {ps : List Value} :
    (∃ cs, predicateAll schema registry m ps = .ok cs) ↔
      ∀ p ∈ ps, ∃ c, predicateClause schema registry m p = .ok c := by
  induction ps with
  | nil => exact iff_of_true ⟨[], rfl⟩ (fun p hp => nomatch hp)
  | cons p ps ih => rw [predicateAll, exists_bind_bind_pure_eq_ok, ih, List.forall_mem_cons]

theorem predicatePart_term (hk : junction? k = none) (hrelation : k.name?.bind m.relation? = none)
    {t : Term} (hterm : k.name?.bind m.term? = some t) (es : Fields) :
    predicatePart schema registry m k (.map es) =
      if isNativeCondition es then do return .clause (← compileCondition registry m t es)
      else .error (m.unsupported k) := by
  have hnamed : m.term k = .ok t := by
    rw [Model.term, hterm]
  rw [predicatePart, hk, hrelation, hnamed]
  rfl

theorem predicatePart_relation (hk : junction? k = none) {r : Relation}
    (hrelation : k.name?.bind m.relation? = some r) {target : Model}
    (htarget : schema.model? r.target = some target) (es : Fields) :
    predicatePart schema registry m k (.map es) =
      if isNativeCondition es then .error (m.unsupported k)
      else do return .clause (.related r
        (Clause.conjunction (← predicateParts schema registry target es))) := by
  rw [predicatePart, hk, hrelation]
  dsimp only
  rw [htarget]

end
end Sql
end Listing
