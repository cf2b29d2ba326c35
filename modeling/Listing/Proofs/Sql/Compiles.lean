import Listing.Params.Parse
import Listing.Proofs.Policy.Shape
import Listing.Proofs.Sql.Native
import Listing.Proofs.Value.Depth
import Listing.Sql.Sample

/-!
# Which filters have a clause

Where a policy follows a model, sanitized filters have a clause, with three exceptions. An order cannot
be asked for with null or a truth value. A mapping under an inequality is taken for a condition, and
must be one. And filters on a relation are taken for a condition if all of their names read as
operators or as native keys.
-/

namespace Listing
namespace Sql

open Outcome

/-! ## Native forms -/

section

open Predicate

variable {P : Key × Value → Prop} {es : Fields}

theorem forall_plainEntries :
    (∀ e ∈ plainEntries es, P e) ↔ ∀ e ∈ es, ∀ op, e.1.operator? = some op → op ≠ .mode →
      op ≠ .not → P (.text op.nativeKey, e.2) := by
  induction es with
  | nil => simp [plainEntries]
  | cons e es ih =>
    obtain ⟨k, v⟩ := e
    rw [List.forall_mem_cons, ← ih]
    by_cases hskip : ∀ op, k.operator? = some op → op = .mode ∨ op = .not
    · rw [plainEntries_cons_skip hskip]
      refine (and_iff_right fun op hop hmode hnot => ?_).symm
      exact ((hskip op hop).elim hmode hnot).elim
    · push Not at hskip
      obtain ⟨op, hop, hmode, hnot⟩ := hskip
      rw [plainEntries_cons_keep hop hmode hnot, List.forall_mem_cons]
      refine and_congr_left fun _ => ⟨fun h op' hop' _ _ => ?_, fun h => h op hop hmode hnot⟩
      rwa [← Option.some.inj (hop.symm.trans hop')]

theorem forall_put_plainEntries (hsingle : SingleOperators es) {w : Value} :
    (∀ e ∈ (plainEntries es).put (.text Operator.not.nativeKey) w, P e) ↔
      P (.text Operator.not.nativeKey, w) ∧ ∀ e ∈ es, ∀ op, e.1.operator? = some op → op ≠ .mode →
        op ≠ .not → op ≠ .ne → P (.text op.nativeKey, e.2) := by
  induction es with
  | nil => simp [plainEntries, Entries.put]
  | cons e es ih =>
    obtain ⟨k, v⟩ := e
    obtain ⟨hother, hsingle⟩ := List.pairwise_cons.mp hsingle
    rw [List.forall_mem_cons]
    by_cases hskip : ∀ op, k.operator? = some op → op = .mode ∨ op = .not
    · rw [plainEntries_cons_skip hskip, ih hsingle]
      refine and_congr_right fun _ => (and_iff_right fun op hop hmode hnot => ?_).symm
      exact ((hskip op hop).elim hmode hnot).elim
    · push Not at hskip
      obtain ⟨op, hop, hmode, hnot⟩ := hskip
      rw [plainEntries_cons_keep hop hmode hnot, Entries.put, Key.same_text]
      by_cases hne : op = .ne
      · -- the negation takes the place of the inequality, and there is no other
        subst hne
        rw [if_pos (by decide), List.forall_mem_cons, forall_plainEntries]
        refine and_congr_right fun _ => ⟨fun h => ⟨fun op hop' _ _ hne => ?_, ?_⟩, fun h => ?_⟩
        · exact absurd (Option.some.inj (hop'.symm.trans hop)) hne
        · exact fun e he op hop' hmode' hnot' _ => h e he op hop' hmode' hnot'
        · refine fun e he op hop' hmode' hnot' => h.2 e he op hop' hmode' hnot' ?_
          rintro rfl
          exact hother e he (hop.trans hop'.symm)
      · have hkey : (op.nativeKey == Operator.not.nativeKey) = false := by
          rw [beq_eq_false_iff_ne, ne_eq, nativeKey_eq_not hnot]
          exact hne
        rw [hkey, if_neg Bool.false_ne_true, List.forall_mem_cons, ih hsingle, and_left_comm]
        refine and_congr_right fun _ => and_congr_left fun _ => ?_
        refine ⟨fun h op' hop' _ _ _ => ?_, fun h => h op hop hmode hnot hne⟩
        rwa [← Option.some.inj (hop.symm.trans hop')]

/-- The native form of a condition has the entries of the condition, with a negation in the place of an
inequality, and at most the mode besides. -/
theorem forall_condition (hsingle : SingleOperators es)
    (hmode : ∀ v, P (.text Operator.mode.nativeKey, v)) :
    (∀ e ∈ condition es, P e) ↔
      (∀ w, negation? es = some w → P (.text Operator.not.nativeKey, w)) ∧
        ∀ e ∈ es, ∀ op, e.1.operator? = some op → op ≠ .mode → op ≠ .not →
          (op = .ne → negation? es = none) → P (.text op.nativeKey, e.2) := by
  have hmodes : ∀ e ∈ modeEntry es, P e := by
    rintro ⟨k, v⟩ he
    obtain rfl : k = .text Operator.mode.nativeKey := (mem_modeEntry he).2
    exact hmode v
  unfold condition assemble
  rw [List.forall_mem_append, and_iff_left hmodes]
  cases negation? es with
  | none =>
    dsimp only
    rw [forall_plainEntries]
    simp
  | some w =>
    dsimp only
    rw [forall_put_plainEntries hsingle]
    simp

end

/-- Whether a clause can be made of each entry of a condition, apart from what it negates: if it takes
its operand and, for an inequality that no negation replaces, if the operand is a condition where it is
a mapping. -/
def Expressible (d : Fields) : Prop :=
  ∀ e ∈ d, ∀ op, e.1.operator? = some op → op ≠ .not →
    op.native.Takes e.2 ∧ (op = .ne → d.find Operator.not.token = none →
      ∀ es, e.2 = .map es → NativeTaken es)

/-- Whether a clause can be made of each entry of a condition and of what it negates, to any depth. -/
def ExpressibleThroughout (c : Fields) : Prop :=
  ∀ n d, Predicate.layer Operator.not.token n c = some d → Expressible d

theorem expressibleThroughout_iff {es : Fields} :
    ExpressibleThroughout es ↔
      (∀ inner, es.find Operator.not.token = some (.map inner) → ExpressibleThroughout inner) ∧
        Expressible es := by
  constructor
  · intro h
    refine ⟨fun inner hfind n d hd => ?_, h 0 es rfl⟩
    exact h (n + 1) d ((Predicate.layer_succ hfind n).trans hd)
  · rintro ⟨hinner, hes⟩ n d hd
    cases n with
    | zero => rwa [← Option.some.inj hd]
    | succ n =>
      obtain ⟨inner, hfind, hd⟩ := Predicate.exists_of_layer_succ hd
      exact hinner inner hfind n d hd

theorem nativeEntryTaken_of_operator {op : Operator} (hmode : op ≠ .mode) (hnot : op ≠ .not)
    {v : Value} :
    NativeEntryTaken (.text op.nativeKey) v ↔
      op.native.Takes v ∧ (op = .ne → ∀ es, v = .map es → NativeTaken es) := by
  by_cases hne : op = .ne
  · subst hne
    cases hfields : v.fields? with
    | none =>
      refine iff_of_true (nativeEntryTaken_not_of_scalar hfields) ⟨trivial, fun _ es hes => ?_⟩
      simp [hes, Value.fields?] at hfields
    | some es =>
      obtain rfl := Value.fields?_eq_some.mp hfields
      refine nativeEntryTaken_not_map.trans ⟨fun h => ⟨trivial, fun _ es' hes => ?_⟩, fun h => ?_⟩
      · rwa [← Value.map.inj hes]
      · exact h.2 rfl es rfl
  · rw [and_iff_left fun h => absurd h hne]
    have hnative : op.native ≠ .mode ∧ op.native ≠ .not := by
      cases op <;> simp_all [Operator.native]
    exact nativeEntryTaken_of_ne_not hnative.1 hnative.2

theorem nativeTaken_equality (v : Value) : NativeTaken [(.text Operator.eq.nativeKey, v)] := by
  have hequals : NativeKey.equals ≠ .mode ∧ NativeKey.equals ≠ .not := by decide
  exact ⟨fun _ => (nativeEntryTaken_of_ne_not hequals.1 hequals.2).mpr trivial, trivial⟩

open Predicate in
theorem nativeTaken_condition {ops : List Operator} {es : Fields} (h : HeldTo ops es)
    (hsingle : SingleThroughout es) :
    NativeTaken (condition es) ↔ ExpressibleThroughout es := by
  induction h using HeldTo.negation_induction with
  | step es h ih =>
    have hskip : ∀ v, isModeKey (.text Operator.mode.nativeKey) = false →
        NativeEntryTaken (.text Operator.mode.nativeKey) v := by
      intro v hkey
      exact absurd hkey (by decide)
    rw [nativeTaken_iff, forall_condition (hsingle 0 es rfl) hskip, expressibleThroughout_iff]
    -- what is negated by induction, and then the entries one by one
    refine and_congr ⟨fun hnegation inner hfind => ?_, fun hinner w hw hkey => ?_⟩ ?_
    · refine (ih inner hfind (hsingle.negation hfind)).mp (nativeEntryTaken_not_map.mp ?_)
      refine hnegation _ ?_ rfl
      rw [negation?_eq, hfind, Option.bind_some, h.negated?_of_find hfind]
    · rw [negation?_eq] at hw
      obtain ⟨v, hfind, hv⟩ := Option.bind_eq_some_iff.mp hw
      cases hfields : v.fields? with
      | none =>
        rw [negated?_of_fields?_eq_none hfields] at hv
        obtain rfl := Option.some.inj hv
        exact nativeEntryTaken_not_map.mpr (nativeTaken_equality v)
      | some inner =>
        obtain rfl := Value.fields?_eq_some.mp hfields
        rw [h.negated?_of_find hfind] at hv
        obtain rfl := Option.some.inj hv
        exact nativeEntryTaken_not_map.mpr
          ((ih inner hfind (hsingle.negation hfind)).mpr (hinner inner hfind))
    · refine forall₂_congr fun e _ => forall₂_congr fun op hop => ?_
      rw [h.negation?_eq_none_iff]
      by_cases hmode : op = .mode
      · subst hmode
        exact iff_of_true (fun hne => absurd rfl hne) fun _ => ⟨trivial, fun hne => nomatch hne⟩
      · have hkey : isModeKey (.text op.nativeKey) = false := by
          cases op with
          | mode => exact absurd rfl hmode
          | _ => rfl
        constructor
        · intro hentry hnot
          by_cases hne : op = .ne
          · subst hne
            refine ⟨trivial, fun _ hnone => ?_⟩
            have htaken := hentry hmode hnot (fun _ => hnone) hkey
            exact ((nativeEntryTaken_of_operator hmode hnot).mp htaken).2 rfl
          · have htaken := hentry hmode hnot (fun hop => absurd hop hne) hkey
            exact ⟨((nativeEntryTaken_of_operator hmode hnot).mp htaken).1, fun hop => absurd hop hne⟩
        · intro hentry _ hnot hne _
          obtain ⟨htakes, hmap⟩ := hentry hnot
          exact (nativeEntryTaken_of_operator hmode hnot).mpr ⟨htakes, fun hop => hmap hop (hne hop)⟩

/-! ## Filters -/

/-- Whether a policy follows a model: it lists operators under names of terms, and under names of
relations what follows the model that is related to. -/
inductive Follows (schema : Schema) : Model → Entries Rule → Prop
  | intro {m : Model} {rules : Entries Rule}
      (term : ∀ name ops, rules.find name = some (.operators ops) →
        m.relation? name = none ∧ ∃ t, m.term? name = some t)
      (relation : ∀ name related, rules.find name = some (.nested related) →
        ∃ r target, m.relation? name = some r ∧ schema.model? r.target = some target)
      (related : ∀ name related r target, rules.find name = some (.nested related) →
        m.relation? name = some r → schema.model? r.target = some target →
        Follows schema target related) : Follows schema m rules

/-- Whether some filter on a relation has a name that is no operator, and some filter one that is no
native key. -/
def NamesFields (inner : Fields) : Prop :=
  (∃ e ∈ inner, e.1.operator? = none) ∧ ∃ e ∈ inner, Predicate.isNativeKey e.1 = false

/-- Whether a clause can be made of filters: of each condition, and of the filters on each relation,
which must not be taken for a condition. -/
def Compilable : Entries Rule → Fields → Prop :=
  Throughout (fun _ => True) ExpressibleThroughout NamesFields

/-- Whether no filter, also none on a relation, has the name of a junction. -/
def JoinsNothing : Entries Rule → Fields → Prop :=
  Throughout (fun k => Predicate.junction? k = none) (fun _ => True) fun _ => True

open Predicate

theorem isNativeCondition_ofFilters (es : Fields) :
    isNativeCondition (ofFilters es) = es.all fun e => isNativeKey e.1 := by
  induction es with
  | nil => rfl
  | cons e es ih =>
    rw [ofFilters, List.all_cons, ← ih]
    rfl

variable {schema : Schema} {registry : Registry} {m : Model} {k : Key}

theorem conditionField_ok_iff {ops : List Operator} {c : Fields} (h : HeldTo ops c) (hne : c ≠ [])
    (hsingle : SingleThroughout c) (hk : junction? k = none)
    (hrelation : k.name?.bind m.relation? = none) {t : Term}
    (hterm : k.name?.bind m.term? = some t) :
    (∃ part, predicatePart schema .standard m k (ofFilter (.map c)) = .ok part) ↔
      ExpressibleThroughout c := by
  rw [ofFilter_condition (h.isCondition hne), predicatePart_term hk hrelation hterm,
    if_pos (isNativeCondition_condition c), exists_bind_pure_eq_ok, compileCondition,
    exists_bind_pure_eq_ok, conditionParts_ok_iff, nativeTaken_condition h hsingle]

theorem relationField_ok_iff {inner : Fields} (hne : inner ≠ []) (hk : junction? k = none)
    {r : Relation} (hrelation : k.name?.bind m.relation? = some r) {target : Model}
    (htarget : schema.model? r.target = some target) :
    (∃ part, predicatePart schema .standard m k (ofFilter (.map inner)) = .ok part) ↔
      NamesFields inner ∧
        ∃ parts, predicateParts schema .standard target (ofFilters inner) = .ok parts := by
  cases hcondition : isCondition inner with
  | true =>
    rw [ofFilter_condition hcondition, predicatePart_relation hk hrelation htarget,
      if_pos (isNativeCondition_condition inner)]
    refine iff_of_false ?_ ?_
    · rintro ⟨part, h⟩
      cases h
    · rintro ⟨⟨⟨e, he, hnone⟩, -⟩, -⟩
      have hsome : e.1.operator?.isSome = true :=
        List.all_eq_true.mp (Bool.and_eq_true_iff.mp hcondition).2 e he
      rw [hnone] at hsome
      cases hsome
  | false =>
    have hfields : ∃ e ∈ inner, e.1.operator? = none := by
      by_contra hall
      push Not at hall
      have hevery : inner.all (fun e => e.1.operator?.isSome) = true :=
        List.all_eq_true.mpr fun e he => Option.isSome_iff_ne_none.mpr (hall e he)
      simp [isCondition, hevery, hne] at hcondition
    rw [ofFilter_relation hcondition, predicatePart_relation hk hrelation htarget,
      isNativeCondition_ofFilters, NamesFields, and_iff_right hfields]
    cases hnative : inner.all fun e => isNativeKey e.1 with
    | true =>
      refine iff_of_false ?_ ?_
      · rintro ⟨part, h⟩
        cases h
      · rintro ⟨⟨e, he, hkey⟩, -⟩
        rw [List.all_eq_true.mp hnative e he] at hkey
        cases hkey
    | false =>
      rw [if_neg Bool.false_ne_true, exists_bind_pure_eq_ok]
      obtain ⟨e, he, hkey⟩ := List.all_eq_false.mp hnative
      exact (and_iff_right ⟨e, he, eq_false_of_ne_true hkey⟩).symm

/-- Filters that rules have passed have clauses exactly if one can be made of each condition, and no
filters on a relation are taken for one. -/
theorem kept_ok_iff {rules : Entries Rule} {es : Fields} (h : Kept rules es)
    (hfollows : Follows schema m rules) (hjoins : JoinsNothing rules es) :
    (∃ parts, predicateParts schema .standard m (ofFilters es) = .ok parts) ↔
      Compilable rules es := by
  induction h generalizing m with
  | nil => exact iff_of_true ⟨[], rfl⟩ trivial
  | condition rule held ne single _ ih =>
    obtain ⟨hk, -, hrest⟩ := (throughout_condition rule).mp hjoins
    obtain ⟨name, hname, hrule⟩ := Option.bind_eq_some_iff.mp rule
    have ⟨hterms, _, _⟩ := hfollows
    obtain ⟨hrelation, t, hterm⟩ := hterms name _ hrule
    rw [ofFilters, predicateParts, exists_bind_bind_pure_eq_ok, Compilable, throughout_condition rule,
      and_iff_right trivial]
    refine and_congr (conditionField_ok_iff held ne single hk ?_ (t := t) ?_) (ih hfollows hrest)
    · rw [hname, Option.bind_some, hrelation]
    · rw [hname, Option.bind_some, hterm]
  | relation rule _ ne _ ihinner ih =>
    obtain ⟨hk, ⟨-, hinner⟩, hrest⟩ := (throughout_relation rule).mp hjoins
    obtain ⟨name, hname, hrule⟩ := Option.bind_eq_some_iff.mp rule
    have ⟨_, hrelations, hrelated⟩ := hfollows
    obtain ⟨r, target, hrelation, htarget⟩ := hrelations name _ hrule
    rw [ofFilters, predicateParts, exists_bind_bind_pure_eq_ok, Compilable, throughout_relation rule,
      and_iff_right trivial]
    refine and_congr ?_ (ih hfollows hrest)
    rw [relationField_ok_iff ne hk (by rw [hname, Option.bind_some, hrelation]) htarget]
    exact and_congr_right fun _ => ihinner (hrelated name _ r target hrule hrelation htarget) hinner

end Sql

open Outcome Sql Predicate

/-- **Which filters compile.** Where a policy follows a model, the predicate of sanitized filters has a
clause exactly if a clause can be made of each condition, and no filters on a relation are taken for
one. -/
theorem sanitized_compiles_iff (schema : Schema) (m : Model) (policy : FieldPolicy) (filters : Value)
    (hkeyed : filters.Keyed) (hfollows : Follows schema m policy.filterable)
    (hjoins : JoinsNothing policy.filterable (policy.sanitizeFilters filters.asFields)) :
    (∃ c, compile schema .standard m
        (.map (ofFilters (policy.sanitizeFilters filters.asFields))) = .ok c) ↔
      Compilable policy.filterable (policy.sanitizeFilters filters.asFields) := by
  rw [compile, predicateClause, exists_bind_pure_eq_ok]
  exact kept_ok_iff (policy.kept_sanitizeFilters hkeyed) hfollows hjoins

/-! ## Users and their teams -/

/-- Comparing the age of a user, and searching and denying in the name of the team. -/
def userPolicy : FieldPolicy where
  filterable := [(.text "age", .operators [.gt, .ne]),
    (.text "team", .nested [(.text "name", .operators [.contains, .not])])]

theorem find_userPolicy {name : String} {rule : Rule}
    (h : userPolicy.filterable.find name = some rule) :
    name = "age" ∧ rule = .operators [.gt, .ne] ∨
      name = "team" ∧ rule = .nested [(.text "name", .operators [.contains, .not])] := by
  simp only [userPolicy, Entries.find_cons, Key.name?_text, Option.some.injEq] at h
  split at h
  · next hname => exact .inl ⟨hname.symm, (Option.some.inj h).symm⟩
  · split at h
    · next hname => exact .inr ⟨hname.symm, (Option.some.inj h).symm⟩
    · nomatch h

theorem follows_team :
    Follows Sample.schema Sample.team [(.text "name", .operators [.contains, .not])] := by
  have hfind : ∀ name rule,
      Entries.find [(.text "name", Rule.operators [.contains, .not])] name = some rule →
        name = "name" ∧ rule = .operators [.contains, .not] := by
    intro name rule h
    rw [Entries.find_cons, Key.name?_text] at h
    split at h
    · next hname => exact ⟨(Option.some.inj hname).symm, (Option.some.inj h).symm⟩
    · nomatch h
  refine .intro (fun name ops h => ?_) (fun name related h => ?_) fun name related _ _ h => ?_
  · obtain ⟨rfl, -⟩ := hfind name _ h
    exact ⟨rfl, _, rfl⟩
  · nomatch (hfind name _ h).2
  · nomatch (hfind name _ h).2

theorem follows_userPolicy : Follows Sample.schema Sample.user userPolicy.filterable := by
  refine .intro (fun name ops h => ?_) (fun name related h => ?_)
    fun name related r target h hr htarget => ?_
  · rcases find_userPolicy h with ⟨rfl, -⟩ | ⟨-, hrule⟩
    · exact ⟨rfl, _, rfl⟩
    · nomatch hrule
  · rcases find_userPolicy h with ⟨-, hrule⟩ | ⟨rfl, -⟩
    · nomatch hrule
    · exact ⟨_, _, rfl, rfl⟩
  · rcases find_userPolicy h with ⟨-, hrule⟩ | ⟨rfl, hrule⟩
    · nomatch hrule
    · obtain rfl := Option.some.inj hr
      obtain rfl := Option.some.inj htarget
      obtain rfl := Rule.nested.inj hrule
      exact follows_team

/-- What is asked of the name of a user's team. -/
def coreTeam : Fields :=
  [(.text Operator.contains.token, .text "Core"), (.text Operator.not.token, .text "Core")]

/-- Filters on the age of a user and on the name of the team. -/
def userFilters : Value :=
  .map [(.text "age", .map [(.text Operator.gt.token, .int 18)]),
    (.text "team", .map [(.text "name", .map coreTeam)])]

theorem sanitized_compiles_user :
    userFilters.Keyed ∧ Follows Sample.schema Sample.user userPolicy.filterable ∧
      JoinsNothing userPolicy.filterable (userPolicy.sanitizeFilters userFilters.asFields) ∧
      Compilable userPolicy.filterable (userPolicy.sanitizeFilters userFilters.asFields) ∧
      ∃ c, compile Sample.schema .standard Sample.user
        (.map (ofFilters (userPolicy.sanitizeFilters userFilters.asFields))) = .ok c := by
  have hkeyed : userFilters.Keyed := by
    simp only [userFilters, coreTeam, Value.Keyed, Value.KeyedEntries]
    decide
  have hjoins : JoinsNothing userPolicy.filterable
      (userPolicy.sanitizeFilters userFilters.asFields) :=
    ⟨rfl, trivial, rfl, ⟨trivial, rfl, trivial, trivial⟩, trivial⟩
  have hcompilable : Compilable userPolicy.filterable
      (userPolicy.sanitizeFilters userFilters.asFields) := by
    refine ⟨trivial, ?_, trivial, ⟨?_, trivial, ?_, trivial⟩, trivial⟩
    · refine expressibleThroughout_iff.mpr ⟨fun inner h => (nomatch h), fun e he op hop _ => ?_⟩
      obtain rfl := List.mem_singleton.mp he
      obtain rfl : Operator.gt = op := Option.some.inj hop
      exact ⟨trivial, fun h => nomatch h⟩
    · exact ⟨⟨_, List.mem_cons_self, rfl⟩, _, List.mem_cons_self, rfl⟩
    · refine expressibleThroughout_iff.mpr ⟨fun inner h => (nomatch h), fun e he op hop hnot => ?_⟩
      rcases List.mem_cons.mp he with rfl | he
      · obtain rfl : Operator.contains = op := Option.some.inj hop
        exact ⟨⟨"Core", rfl⟩, fun h => nomatch h⟩
      · obtain rfl := List.mem_singleton.mp he
        exact absurd (Option.some.inj hop).symm hnot
  exact ⟨hkeyed, follows_userPolicy, hjoins, hcompilable,
    (sanitized_compiles_iff Sample.schema Sample.user userPolicy userFilters hkeyed follows_userPolicy
      hjoins).mpr hcompilable⟩

def aboveNull : Fields := [(.text "age", .map [(.text Operator.gt.token, .none)])]

/-- **The failure.** Filters that ask for an age above null are read from a query and pass the policy, but
have no clause. -/
theorem order_with_null_has_no_clause :
    QueryParams.parseFilters {} [(.text "filters", .map aboveNull)] = .ok aboveNull ∧
      Follows Sample.schema Sample.user userPolicy.filterable ∧
      userPolicy.sanitizeFilters aboveNull = aboveNull ∧
      compile Sample.schema .standard Sample.user (.map (ofFilters aboveNull)) =
        .error .orderedConstant := by
  have hdepth : Value.deeper maxFilterDepth (.map aboveNull) = false := by
    rw [Value.deeper_eq]
    rfl
  have hobject : ObjectParam.ofParam? (some (.map aboveNull)) = .object aboveNull := by
    rw [ObjectParam.ofParam?, ObjectParam.ofValue, hdepth]
    rfl
  refine ⟨?_, follows_userPolicy, rfl, rfl⟩
  have hfirst : Source.first? [(.text "filters", .map aboveNull)] "filters" =
      some (.map aboveNull) := rfl
  rw [QueryParams.parseFilters, hfirst, hobject]
  rfl

end Listing
