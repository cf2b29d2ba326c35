import Listing.Proofs.Policy.Names
import Listing.Proofs.Predicate.Conjunction
import Listing.Proofs.Predicate.Meaning
import Listing.Proofs.Predicate.Short

/-!
# Evaluations that give an answer

Every test of a value gives an answer but a search in texts, which needs the text of both values. So the
predicate of sanitized filters gives an answer on a record whose values have texts, as long as no name
is taken for a junction and no relation leads to a scalar.
-/

namespace Listing

open Outcome Predicate
open Value (ShortEntries short_of_find shortAll_iff display_succeeds)

/-! ## Values of a record -/

theorem Value.get_succeeds {record : Value} {k : Key} {name : String} (hk : k.name? = some name)
    (h : record.Short) :
    ∃ v, record.get k = .ok v ∧ v.Short ∧ v = Reading.valueAt record (.text name) := by
  have hfound : ∀ es : List (Key × Value), ShortEntries es →
      ((Entries.get? es k).getD .none).Short ∧
        Entries.get? es k = Entries.get? es (.text name) := by
    intro es hes
    rw [Entries.get?_of_name hk]
    refine ⟨?_, rfl⟩
    cases hfind : Entries.find es name with
    | none => exact trivial
    | some v => exact short_of_find hes hfind
  have hsome : k.name?.isSome = true := by rw [hk]; rfl
  cases record with
  | map es =>
    obtain ⟨hshort, hkey⟩ := hfound es h
    exact ⟨_, rfl, hshort, by rw [hkey]; rfl⟩
  | object i es =>
    obtain ⟨hshort, hkey⟩ := hfound es h
    exact ⟨_, if_pos hsome, hshort, by rw [hkey]; rfl⟩
  | _ => exact ⟨.none, if_pos hsome, trivial, rfl⟩

/-! ## Conditions -/

theorem textual_succeeds {test : List Char → List Char → Bool} {fold : Bool} {actual expected : Value}
    (hactual : actual.Short) (hexpected : expected.Short) :
    Succeeds (textual test fold actual expected) := by
  unfold textual
  split
  · exact ⟨_, rfl⟩
  · exact ⟨_, rfl⟩
  · exact (display_succeeds hactual).bind fun _ => (display_succeeds hexpected).map _

theorem test_succeeds {fold : Bool} {actual expected : Value} {key : NativeKey}
    (hactual : actual.Short) (hexpected : expected.Short) :
    Succeeds (test fold actual key expected) := by
  unfold test
  cases key with
  | contains | startsWith | endsWith => exact textual_succeeds hactual hexpected
  | _ => exact ⟨_, rfl⟩

mutual

theorem passes_succeeds {actual : Value} (hactual : actual.Short) :
    ∀ (es : Fields) (fold : Bool), ShortEntries es → Succeeds (passes fold actual es)
  | [], _, _ => ⟨_, rfl⟩
  | (k, v) :: rest, fold, ⟨_, hv, hrest⟩ => by
    have hothers := passes_succeeds hactual rest fold hrest
    have hgo : ∀ passed : Bool, Succeeds (if passed then passes fold actual rest else pure false) :=
      fun _ => .ite hothers ⟨_, rfl⟩
    rw [passes]
    split
    · exact (passesEntry_succeeds hactual v fold hv).bind hgo
    · exact hgo true

theorem passesEntry_succeeds {actual : Value} (hactual : actual.Short) {key : NativeKey} :
    ∀ (v : Value) (fold : Bool), v.Short → Succeeds (passesEntry fold actual key v)
  | .map es, fold, h => by
    have hinner := passes_succeeds hactual es (isInsensitive es) h
    rw [passesEntry]
    split
    · exact hinner.map _
    · exact test_succeeds hactual h
  | .none, _, h | .bool _, _, h | .int _, _, h | .float _, _, h | .text _, _, h | .bytes _, _, h
  | .operator _, _, h | .direction _, _, h | .list _, _, h | .tuple _, _, h | .set _, _, h
  | .object _ _, _, h | .items _, _, h | .rule _, _, h | .policy _, _, h => test_succeeds hactual h

end

/-! ## Relations -/

/-- What a relation that leads to a value goes on to: nothing for null, each item of a collection, or the
value. -/
def Value.related (v : Value) : List Value :=
  if isNull v then [] else (items? v).getD [v]

theorem short_related {v x : Value} (h : v.Short) (hx : x ∈ v.related) : x.Short := by
  unfold Value.related at hx
  split at hx
  · cases hx
  · cases v with
    | list xs | tuple xs | set xs => exact shortAll_iff.mp h x hx
    | _ => exact List.mem_singleton.mp hx ▸ h

theorem anyOf_succeeds {α : Type} {test : α → Except Failure Bool} {xs : List α}
    (h : ∀ x ∈ xs, Succeeds (test x)) : Succeeds (anyOf test xs) := by
  induction xs with
  | nil => exact ⟨_, rfl⟩
  | cons x xs ih =>
    obtain ⟨hx, hxs⟩ := List.forall_mem_cons.mp h
    exact hx.bind fun _ => .ite ⟨_, rfl⟩ (ih hxs)

/-- An entry gives an answer if it is a condition, or if its relation leads to records on which what is
asked of them gives one. -/
theorem entryHolds_succeeds {record actual : Value} {k : Key} {es : Fields} (hk : junction? k = none)
    (hget : record.get k = .ok actual) (hactual : actual.Short) (hes : ShortEntries es)
    (h : isNativeCondition es = false →
      isScalar actual = false ∧ ∀ x ∈ actual.related, Succeeds (holds x es)) :
    Succeeds (entryHolds record k (.map es)) := by
  rw [Reading.entryHolds_map hk, hget]
  dsimp only [bind, Except.bind]
  by_cases hnative : isNativeCondition es = true
  · rw [if_pos hnative]
    exact passes_succeeds hactual es _ hes
  · obtain ⟨hscalar, hrelated⟩ := h (eq_false_of_ne_true hnative)
    rw [if_neg hnative]
    unfold Value.related at hrelated
    by_cases hnull : isNull actual = true
    · rw [if_pos hnull]
      exact ⟨_, rfl⟩
    · rw [if_neg hnull] at hrelated ⊢
      cases hitems : items? actual with
      | some xs =>
        rw [hitems] at hrelated
        exact anyOf_succeeds hrelated
      | none =>
        rw [hitems] at hrelated
        dsimp only
        rw [hscalar, if_neg Bool.false_ne_true]
        exact hrelated actual List.mem_cons_self

mutual

/-- Whether the value of a field fits a rule: where the rule is for a relation, the value is no scalar, and
what it leads to fits the rules of the relation. -/
def Rule.Fits : Rule → Value → Prop
  | .operators _, _ => True
  | .nested rules, v => isScalar v = false ∧ ∀ x ∈ v.related, FitsAll rules x
termination_by structural r => r

/-- Whether the fields of a record fit the rules that list them. -/
def Rule.FitsAll : List (Key × Rule) → Value → Prop
  | [], _ => True
  | (k, r) :: rest, record =>
    (∀ name, k.name? = some name → r.Fits (Reading.valueAt record (.text name))) ∧
      FitsAll rest record
termination_by structural rules => rules

end

theorem Rule.FitsAll.find {rules : Entries Rule} {record : Value} (h : FitsAll rules record)
    {name : String} {r : Rule} (hr : rules.find name = some r) :
    r.Fits (Reading.valueAt record (.text name)) := by
  induction rules with
  | nil => simp at hr
  | cons first rest ih =>
    obtain ⟨k, s⟩ := first
    rw [Entries.find_cons] at hr
    split at hr
    · next hname =>
      obtain rfl := Option.some.inj hr
      exact h.1 name hname
    · exact ih h.2 hr

/-! ## Filters -/

/-- A name that no junction has. -/
def FreeName (name : String) : Prop := name ∉ ["AND", "OR", "NOT"]

theorem junction?_of_free {k : Key} {name : String} (hk : k.name? = some name) (h : FreeName name) :
    junction? k = none := by
  have hfree : name ≠ "AND" ∧ name ≠ "OR" ∧ name ≠ "NOT" := by simpa [FreeName] using h
  unfold junction?
  rw [List.find?_eq_none]
  intro j _
  rw [Key.same_name, hk, beq_iff_eq, Option.some.injEq]
  cases j with
  | all => exact hfree.1
  | any => exact hfree.2.1
  | none => exact hfree.2.2

theorem holds_cons_succeeds {record v : Value} {k : Key} {rest : Fields}
    (hentry : Succeeds (entryHolds record k v)) (hrest : Succeeds (holds record rest)) :
    Succeeds (holds record ((k, v) :: rest)) := by
  rw [holds]
  exact hentry.bind fun _ => .ite hrest ⟨_, rfl⟩

mutual

/-- The predicate of sanitized filters gives an answer on records that fit the rules. -/
theorem holds_sanitized : ∀ (es : Fields) {rules : Entries Rule},
    (Rule.nested rules).Names FreeName → ShortEntries es → ∀ {record : Value}, record.Short →
      Rule.FitsAll rules record →
        Succeeds (holds record (ofFilters (Sanitize.fields rules es)))
  | [], _, _, _, _, _, _ => ⟨_, rfl⟩
  | (k, v) :: rest, rules, hnames, ⟨_, hv, hrest⟩, record, hrecord, hfits => by
    have hothers := holds_sanitized rest hnames hrest hrecord hfits
    rcases Sanitize.fields_cons rules k v rest with hskip | ⟨rule, hrule, hne, hkeep⟩
    · rw [hskip]
      exact hothers
    · obtain ⟨name, hname, hfind⟩ := Option.bind_eq_some_iff.mp hrule
      obtain ⟨hfree, hrules⟩ := hnames.find hfind
      have hfit := hfits.find hfind
      obtain ⟨actual, hget, hactual, rfl⟩ := Value.get_succeeds hname hrecord
      have hk := junction?_of_free hname hfree
      have hkept := Sanitize.short_field (r := rule) v hv
      rw [hkeep, ofFilters]
      refine holds_cons_succeeds ?_ hothers
      rw [ofFilter]
      split
      · refine entryHolds_succeeds hk hget hactual (short_condition hkept) fun hnative => ?_
        rw [isNativeCondition_condition] at hnative
        cases hnative
      · next hcondition =>
        cases rule with
        | operators ops =>
          exact absurd ((Sanitize.heldTo_field ops v).isCondition hne) hcondition
        | nested related =>
          refine entryHolds_succeeds hk hget hactual (short_ofFilters _ hkept) fun _ => ?_
          refine ⟨hfit.1, fun x hx => ?_⟩
          exact holds_related v hrules hv (short_related hactual hx) (hfit.2 x hx)

theorem holds_related : ∀ (v : Value) {rules : Entries Rule},
    (Rule.nested rules).Names FreeName → v.Short → ∀ {record : Value}, record.Short →
      Rule.FitsAll rules record →
        Succeeds (holds record (ofFilters (Sanitize.field (.nested rules) v)))
  | .map es, _, hnames, h, _, hrecord, hfits => holds_sanitized es hnames h hrecord hfits
  | .none, _, _, _, _, _, _ | .bool _, _, _, _, _, _, _ | .int _, _, _, _, _, _, _
  | .float _, _, _, _, _, _, _ | .text _, _, _, _, _, _, _ | .bytes _, _, _, _, _, _, _
  | .operator _, _, _, _, _, _, _ | .direction _, _, _, _, _, _, _ | .list _, _, _, _, _, _, _
  | .tuple _, _, _, _, _, _, _ | .set _, _, _, _, _, _, _ | .object _ _, _, _, _, _, _, _
  | .items _, _, _, _, _, _, _ | .rule _, _, _, _, _, _, _ | .policy _, _, _, _, _, _, _ => ⟨_, rfl⟩

end

/-! ## Searches and joined predicates -/

theorem anyHolds_succeeds {record : Value} {ps : List Value}
    (h : ∀ p ∈ ps, Succeeds (valueHolds record p)) : Succeeds (anyHolds record ps) := by
  induction ps with
  | nil => exact ⟨_, rfl⟩
  | cons p ps ih =>
    obtain ⟨hp, hps⟩ := List.forall_mem_cons.mp h
    rw [anyHolds]
    exact hp.bind fun _ => .ite ⟨_, rfl⟩ (ih hps)

theorem allHold_succeeds {record : Value} {ps : List Value}
    (h : ∀ p ∈ ps, Succeeds (valueHolds record p)) : Succeeds (allHold record ps) := by
  induction ps with
  | nil => exact ⟨_, rfl⟩
  | cons p ps ih =>
    obtain ⟨hp, hps⟩ := List.forall_mem_cons.mp h
    rw [allHold]
    exact hp.bind fun _ => .ite (ih hps) ⟨_, rfl⟩

theorem search_succeeds {record : Value} (hrecord : record.Short) (text : String)
    {names : List String} (hfree : ∀ name ∈ names, FreeName name) :
    Succeeds (holds record (search (.text text) (names.map .text))) := by
  refine holds_cons_succeeds ?_ ⟨_, rfl⟩
  rw [entryHolds_any]
  refine anyHolds_succeeds ?_
  rw [List.map_map, List.forall_mem_map]
  intro name hname
  obtain ⟨actual, hget, hactual, -⟩ := Value.get_succeeds (k := .text name) rfl hrecord
  refine holds_cons_succeeds ?_ ⟨_, rfl⟩
  have hk : junction? (.text name) = none := junction?_of_free rfl (hfree name hname)
  exact entryHolds_succeeds hk hget hactual ⟨trivial, trivial, trivial, trivial, trivial⟩
    fun hnative => nomatch hnative

theorem joined_succeeds {record : Value} {clauses : List Fields}
    (h : ∀ es ∈ clauses, Succeeds (holds record es)) : Succeeds (holds record (joined clauses)) := by
  match clauses with
  | [] => exact ⟨_, rfl⟩
  | [es] => exact h es List.mem_cons_self
  | es :: fs :: rest =>
    have hjoined : joined (es :: fs :: rest) =
        [(.text Junction.all.key, .list ((es :: fs :: rest).map .map))] := rfl
    rw [hjoined]
    refine holds_cons_succeeds ?_ ⟨_, rfl⟩
    rw [entryHolds_all]
    refine allHold_succeeds ?_
    rw [List.forall_mem_map]
    exact h

/-- Whether what may stand for a predicate gives an answer on every record of a row; whatever counts as
false asks for nothing. -/
def Answers (records : List Value) (predicate : Value) : Prop :=
  predicate.isTrue = true →
    ∃ es, predicate.toFields = .ok es ∧ ∀ record ∈ records, Succeeds (holds record es)

theorem conjunction_succeeds {records predicates : List Value}
    (h : ∀ p ∈ predicates, Answers records p) :
    ∃ q, conjunction predicates = .ok q ∧ ∀ record ∈ records, Succeeds (holds record q) := by
  have hfields : ∀ p ∈ predicates.filter (·.isTrue), ∃ es, p.toFields = .ok es ∧
      ∀ record ∈ records, Succeeds (holds record es) := by
    intro p hp
    obtain ⟨hmem, htrue⟩ := List.mem_filter.mp hp
    exact h p hmem htrue
  obtain ⟨clauses, hclauses⟩ : Succeeds ((predicates.filter (·.isTrue)).mapM Value.toFields) := by
    refine .mapM fun p hp => ?_
    obtain ⟨es, hes, -⟩ := hfields p hp
    exact ⟨es, hes⟩
  refine ⟨joined clauses, ?_, fun record hrecord => joined_succeeds fun es hes => ?_⟩
  · rw [conjunction_eq, hclauses]
    rfl
  · obtain ⟨p, hp, hpes⟩ := exists_source (mapM_eq_ok.mp hclauses) hes
    obtain ⟨es', hes', hholds⟩ := hfields p hp
    rw [hpes] at hes'
    exact Except.ok.inj hes' ▸ hholds record hrecord

end Listing
