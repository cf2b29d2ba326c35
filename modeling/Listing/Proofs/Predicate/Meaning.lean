import Listing.Params.Tree
import Listing.Proofs.Policy.Shape
import Listing.Proofs.Predicate.Reading

/-!
# Filters keep their meaning

The predicate that sanitized filters turn into says of a record what the filters say: wherever its
evaluation gives an answer, that is the answer of the direct reading. The proof goes along the entries
of the native form, which are those of the condition in another order, and down through negations and
relations.
-/

namespace Listing

open Outcome Predicate

/-! ## Agreement of an evaluation and a reading -/

/-- Whenever an evaluation gives an answer, it is this one. -/
def Agrees (x : Except Failure Bool) (answer : Bool) : Prop := ∀ b, x = .ok b → answer = b

namespace Agrees

variable {x y : Except Failure Bool} {p q : Bool}

theorem ok (b : Bool) : Agrees (.ok b) b := fun _ h => Except.ok.inj h

theorem error (f : Failure) (b : Bool) : Agrees (.error f) b := fun _ h => nomatch h

theorem isYes (x : Except Failure Bool) : Agrees x (isYes x) := by
  rintro b rfl
  rfl

theorem not (h : Agrees x p) : Agrees (do return !(← x)) (!p) := by
  cases x with
  | error f => exact error f _
  | ok b =>
    rw [h b rfl]
    exact ok _

theorem and (hx : Agrees x p) (hy : Agrees y q) :
    Agrees (do if ← x then y else return false) (p && q) := by
  cases x with
  | error f => exact error f _
  | ok b =>
    obtain rfl := hx b rfl
    cases p with
    | false => exact ok false
    | true => exact hy

theorem anyOf {α : Type} {test : α → Except Failure Bool} {answer : α → Bool} {xs : List α}
    (h : ∀ x, Agrees (test x) (answer x)) : Agrees (anyOf test xs) (xs.any answer) := by
  induction xs with
  | nil => exact ok false
  | cons x xs ih =>
    rw [Predicate.anyOf, List.any_cons]
    cases htest : test x with
    | error f => exact error f _
    | ok b =>
      rw [h x b htest]
      cases b with
      | false => exact ih
      | true => exact ok true

end Agrees

/-! ## Native entries -/

namespace Reading

theorem passesEntry_of_ne_not {fold : Bool} {actual expected : Value} {key : NativeKey}
    (h : key ≠ .not) : passesEntry fold actual key expected = test fold actual key expected := by
  cases expected with
  | map es => rw [passesEntry, if_neg (fun hkey => h hkey.1)]
  | _ =>
    rw [passesEntry]
    intro es h
    cases h

theorem passesEntry_of_scalar {fold : Bool} {actual expected : Value} {key : NativeKey}
    (h : expected.fields? = none) :
    passesEntry fold actual key expected = test fold actual key expected := by
  cases expected with
  | map es => simp [Value.fields?] at h
  | _ =>
    rw [passesEntry]
    intro es h
    cases h

theorem agrees_test {fold : Bool} {actual expected : Value} {op : Operator} (hnot : op ≠ .not) :
    Agrees (test fold actual op.native expected) (passes fold actual op expected) := by
  cases op with
  | not => exact absurd rfl hnot
  | contains | startsWith | endsWith => exact .isYes _
  | notIn =>
    have hall : (expected.elements.all fun e => !equal fold actual e) =
        !among fold actual expected := List.not_any_eq_all_not.symm
    rw [passes, hall]
    exact .ok _
  | _ => exact .ok _

theorem agrees_cons {fold : Bool} {actual v : Value} {k : Key} {key : NativeKey} {rest : Fields}
    {p q : Bool} (hkey : nativeKey? k = some key) (hentry : Agrees (passesEntry fold actual key v) p)
    (hrest : Agrees (Predicate.passes fold actual rest) q) :
    Agrees (Predicate.passes fold actual ((k, v) :: rest)) (p && q) := by
  rw [Predicate.passes, hkey]
  exact hentry.and hrest

theorem entryMet_of_skipped {fold negated : Bool} {actual v : Value} {k : Key}
    (h : ∀ op, k.operator? = some op → op = .mode ∨ op = .not) :
    entryMet fold negated actual k v = true := by
  unfold entryMet
  cases hop : k.operator? with
  | none => rfl
  | some op => rcases h op hop with rfl | rfl <;> simp [passes]

/-- The operand of an inequality is no mapping. -/
def ScalarInequality (es : Fields) : Prop :=
  ∀ e ∈ es, e.1.operator? = some .ne → e.2.fields? = none

variable {fold : Bool} {actual : Value} {es tail : Fields} {p q : Bool}

theorem agrees_plainEntry {op : Operator} {k : Key} {v : Value} {rest : Fields} {negated : Bool}
    (hop : k.operator? = some op) (hnot : op ≠ .not)
    (hentry : op = .ne → v.fields? = none ∧ negated = false)
    (hrest : Agrees (Predicate.passes fold actual rest) q) :
    Agrees (Predicate.passes fold actual ((.text op.nativeKey, v) :: rest))
      (entryMet fold negated actual k v && q) := by
  refine agrees_cons (nativeKey?_nativeKey op) ?_ hrest
  have hmet : entryMet fold negated actual k v = passes fold actual op v := by
    rw [entryMet, hop]
    by_cases hne : op = .ne
    · simp [(hentry hne).2]
    · simp [hne]
  rw [hmet]
  by_cases hne : op = .ne
  · rw [passesEntry_of_scalar (hentry hne).1]
    exact agrees_test hnot
  · rw [passesEntry_of_ne_not]
    · exact agrees_test hnot
    · intro hnative
      exact hne ((nativeKey_eq_not hnot).mp (congrArg NativeKey.name hnative))

theorem agrees_plainEntries (hscalar : ScalarInequality es) {negated : Bool}
    (hnegated : negated = true → ∀ e ∈ es, e.1.operator? ≠ some .ne)
    (htail : Agrees (Predicate.passes fold actual tail) q) :
    Agrees (Predicate.passes fold actual (plainEntries es ++ tail))
      ((es.all fun e => entryMet fold negated actual e.1 e.2) && q) := by
  induction es with
  | nil => simpa [plainEntries] using htail
  | cons e es ih =>
    obtain ⟨k, v⟩ := e
    obtain ⟨hfirst, hscalar⟩ := List.forall_mem_cons.mp hscalar
    have ih := ih hscalar fun hneg => (List.forall_mem_cons.mp (hnegated hneg)).2
    by_cases hskip : ∀ op, k.operator? = some op → op = .mode ∨ op = .not
    · rw [plainEntries_cons_skip hskip, List.all_cons, entryMet_of_skipped hskip, Bool.true_and]
      exact ih
    · push Not at hskip
      obtain ⟨op, hop, hmode, hnot⟩ := hskip
      rw [plainEntries_cons_keep hop hmode hnot, List.cons_append, List.all_cons, Bool.and_assoc]
      refine agrees_plainEntry hop hnot (fun hne => ?_) ih
      subst hne
      refine ⟨hfirst hop, Bool.eq_false_iff.mpr fun hneg => ?_⟩
      exact (List.forall_mem_cons.mp (hnegated hneg)).1 hop

/-- A negation takes the place of an inequality, or comes last. -/
theorem agrees_put {w : Value} (hscalar : ScalarInequality es) (hsingle : SingleOperators es)
    (hnegation : Agrees (passesEntry fold actual .not w) p)
    (htail : Agrees (Predicate.passes fold actual tail) q) :
    Agrees (Predicate.passes fold actual
        ((plainEntries es).put (.text Operator.not.nativeKey) w ++ tail))
      (p && ((es.all fun e => entryMet fold true actual e.1 e.2) && q)) := by
  induction es with
  | nil =>
    rw [List.all_nil, Bool.true_and]
    exact agrees_cons rfl hnegation htail
  | cons e es ih =>
    obtain ⟨k, v⟩ := e
    obtain ⟨hfirst, hscalar⟩ := List.forall_mem_cons.mp hscalar
    obtain ⟨hother, hsingle⟩ := List.pairwise_cons.mp hsingle
    by_cases hskip : ∀ op, k.operator? = some op → op = .mode ∨ op = .not
    · rw [plainEntries_cons_skip hskip, List.all_cons, entryMet_of_skipped hskip, Bool.true_and]
      exact ih hscalar hsingle
    · push Not at hskip
      obtain ⟨op, hop, hmode, hnot⟩ := hskip
      rw [plainEntries_cons_keep hop hmode hnot, Entries.put, Key.same_text, List.all_cons]
      by_cases hne : op = .ne
      · subst hne
        have hmet : entryMet fold true actual k v = true := by simp [entryMet, hop]
        rw [if_pos (by decide), List.cons_append, hmet, Bool.true_and]
        refine agrees_cons rfl hnegation (agrees_plainEntries hscalar (fun _ e he => ?_) htail)
        rw [← hop]
        exact (hother e he).symm
      · have hkey : (op.nativeKey == Operator.not.nativeKey) = false := by
          rw [beq_eq_false_iff_ne, ne_eq, nativeKey_eq_not hnot]
          exact hne
        rw [hkey, if_neg Bool.false_ne_true, List.cons_append, Bool.and_assoc, Bool.and_left_comm]
        exact agrees_plainEntry hop hnot (fun h => absurd h hne) (ih hscalar hsingle)

/-! ## Modes -/

theorem agrees_modeEntry (fold : Bool) (actual : Value) (es : Fields) :
    Agrees (Predicate.passes fold actual (modeEntry es)) true := by
  have hmode : ∀ v, Agrees (passesEntry fold actual .mode v) true := by
    intro v
    rw [passesEntry_of_ne_not (by decide)]
    exact .ok true
  unfold modeEntry
  split
  · split
    · exact agrees_cons (p := true) (q := true) (nativeKey?_nativeKey .mode) (hmode _) (.ok true)
    · exact .ok true
  · exact .ok true

theorem find_mode_plainEntries (es : Fields) : (plainEntries es).find NativeKey.mode.name = none := by
  induction es with
  | nil => rfl
  | cons e es ih =>
    obtain ⟨k, v⟩ := e
    by_cases hskip : ∀ op, k.operator? = some op → op = .mode ∨ op = .not
    · rw [plainEntries_cons_skip hskip, ih]
    · push Not at hskip
      obtain ⟨op, hop, hmode, hnot⟩ := hskip
      have hkey : Key.name? (.text op.nativeKey) ≠ some NativeKey.mode.name := by
        cases op <;> simp_all [Operator.nativeKey, Operator.native, NativeKey.name]
      rw [plainEntries_cons_keep hop hmode hnot, Entries.find_cons, if_neg hkey, ih]

theorem isTrue_of_same_text {v : Value} {s : String} (hs : s ≠ "") (h : v.same (.text s) = true) :
    v.isTrue = true := by
  cases v with
  | text t =>
    have hst : t = s := by simpa [Value.same, Value.text?] using h
    simpa [Value.isTrue, hst] using hs
  | operator op => rfl
  | direction d => rfl
  | _ => simp [Value.same, Value.text?] at h

theorem isInsensitive_condition (es : Fields) : isInsensitive (condition es) = foldsCase es := by
  have hplain : (condition es).find NativeKey.mode.name = (modeEntry es).find NativeKey.mode.name := by
    unfold condition assemble
    rw [Entries.find_append]
    split
    · rw [Entries.find_put, if_neg (by decide), find_mode_plainEntries, Option.none_or]
    · rw [find_mode_plainEntries, Option.none_or]
  rw [isInsensitive, hplain, foldsCase, modeEntry]
  cases es.find Operator.mode.token with
  | none => rfl
  | some mode =>
    by_cases hsame : mode.same (.text "insensitive") = true
    · dsimp only
      rw [isTrue_of_same_text (by decide) hsame, Bool.true_and, Option.any_some, hsame, Bool.true_and]
      cases Operator.textual.any (es.has ·.token) with
      | true => exact hsame
      | false => rfl
    · rw [Bool.not_eq_true] at hsame
      rw [Option.any_some, hsame, Bool.false_and]
      dsimp only
      split
      · exact hsame
      · rfl

/-! ## Conditions -/

theorem negationMet_eq (actual : Value) (es : Fields) :
    negationMet actual es = (es.find Operator.not.token).all (!meets actual ·) := by
  induction es with
  | nil => rfl
  | cons e es ih =>
    obtain ⟨k, v⟩ := e
    rw [negationMet, Entries.find_cons]
    simp only [Key.operator?_eq_some]
    split
    · rfl
    · exact ih

theorem meets_of_scalar {v : Value} (h : v.fields? = none) : meets actual v = actual.same v := by
  cases v with
  | map es => simp [Value.fields?] at h
  | _ =>
    rw [meets]
    intro es h
    cases h

theorem agrees_negatedScalar (fold : Bool) (actual : Value) {v : Value} (h : v.fields? = none) :
    Agrees (passesEntry fold actual .not (equality v)) (!meets actual v) := by
  have hpasses : Agrees (Predicate.passes false actual [(.text Operator.eq.nativeKey, v)])
      (actual.same v && true) := by
    refine agrees_cons (nativeKey?_nativeKey .eq) ?_ (.ok true)
    rw [passesEntry_of_scalar h]
    exact .ok _
  rw [Bool.and_true] at hpasses
  rw [meets_of_scalar h]
  exact hpasses.not

theorem agrees_negatedCondition (fold : Bool) {inner : Fields}
    (h : Agrees (satisfies actual (condition inner)) (meets actual (.map inner))) :
    Agrees (passesEntry fold actual .not (.map (condition inner))) (!meets actual (.map inner)) := by
  rw [passesEntry, if_pos ⟨rfl, isNativeCondition_condition inner⟩]
  exact h.not

variable {ops : List Operator}

/-- The native form of a condition says what the condition says, if that of its negation does. -/
theorem agrees_condition_of_negation (h : HeldTo ops es) (hscalar : ScalarInequality es)
    (hsingle : SingleOperators es)
    (hinner : ∀ inner, es.find Operator.not.token = some (.map inner) →
      Agrees (satisfies actual (condition inner)) (meets actual (.map inner))) :
    Agrees (satisfies actual (condition es)) (meets actual (.map es)) := by
  rw [satisfies, isInsensitive_condition, meets, negationMet_eq, entriesMet, Entries.has]
  unfold condition assemble
  rw [negation?_eq]
  cases hfind : es.find Operator.not.token with
  | none =>
    have hplain := agrees_plainEntries hscalar (fun hneg : false = true => nomatch hneg)
      (agrees_modeEntry (foldsCase es) actual es)
    simpa using hplain
  | some v =>
    -- what stands under `not` in the native form, and that it is the negation
    obtain ⟨w, hw, hnegation⟩ : ∃ w, negated? v = some w ∧
        Agrees (passesEntry (foldsCase es) actual .not w) (!meets actual v) := by
      cases hfields : v.fields? with
      | none => exact ⟨_, negated?_of_fields?_eq_none hfields, agrees_negatedScalar _ _ hfields⟩
      | some inner =>
        obtain rfl := Value.fields?_eq_some.mp hfields
        exact ⟨_, h.negated?_of_find hfind, agrees_negatedCondition _ (hinner inner hfind)⟩
    have hput := agrees_put hscalar hsingle hnegation (agrees_modeEntry (foldsCase es) actual es)
    simpa [hw] using hput

/-- The operand of an inequality is no mapping, in a condition and in what it negates. -/
def ScalarThroughout (c : Fields) : Prop :=
  ∀ n d, layer Operator.not.token n c = some d → ScalarInequality d

theorem agrees_condition (h : HeldTo ops es) (hscalar : ScalarThroughout es)
    (hsingle : SingleThroughout es) (actual : Value) :
    Agrees (satisfies actual (condition es)) (meets actual (.map es)) := by
  induction h using HeldTo.negation_induction with
  | step es h ih =>
    refine agrees_condition_of_negation h (hscalar 0 es rfl) (hsingle 0 es rfl) fun inner hfind => ?_
    have hinner := fun n d hd => hscalar (n + 1) d ((layer_succ hfind n).trans hd)
    exact ih inner hfind hinner (hsingle.negation hfind)

/-! ## Filters -/

/-- A key that reads as the name of a field only: it is no native key, joins nothing and is not marked
as an operator. -/
def NamesField (k : Key) : Prop :=
  isNativeKey k = false ∧ junction? k = none ∧ FilterTree.isMarked k = false

/-- Whether the fields that filters ask for, also those of relations, have names that read as such only,
and no mapping is the operand of an inequality in their conditions. -/
def Clear : Entries Rule → Fields → Prop := Throughout NamesField ScalarThroughout fun _ => True

theorem operator?_eq_none {k : Key} (h : FilterTree.isMarked k = false) : k.operator? = none := by
  rw [Option.eq_none_iff_forall_ne_some]
  intro op hop
  rw [FilterTree.isMarked, Key.operator?_eq_some.mp hop] at h
  cases op <;> cases h

theorem entryHolds_map {record : Value} {k : Key} (hk : junction? k = none) (es : Fields) :
    entryHolds record k (.map es) = (do
      let actual ← record.get k
      if isNativeCondition es then satisfies actual es
      else if isNull actual then return false
      else match items? actual with
        | some xs => Predicate.anyOf (fun x => holds x es) xs
        | none =>
          if isScalar actual then throw (.unsupportedPredicate (foreignKey es) "InMemoryStore")
          else holds actual es) := by
  unfold entryHolds
  generalize junction? k = joined at hk
  cases hk
  rfl

theorem valueAt_eq {record actual : Value} {k : Key} (h : record.get k = .ok actual) :
    valueAt record k = actual := by
  rw [valueAt, h]
  rfl

theorem agrees_conditionField {ops : List Operator} {kept : Fields} (h : HeldTo ops kept)
    (hne : kept ≠ []) (hscalar : ScalarThroughout kept) (hsingle : SingleThroughout kept) {k : Key}
    (hk : junction? k = none) (record : Value) :
    Agrees (entryHolds record k (ofFilter (.map kept)))
      (fieldHolds (valueAt record k) (.map kept)) := by
  have hcondition := h.isCondition hne
  have hoperator : hasOperator kept = true := by
    obtain ⟨e, he⟩ := List.exists_mem_of_ne_nil kept hne
    obtain ⟨op, -, hkey⟩ := h.mem he
    exact List.any_eq_true.mpr ⟨e, he, by simp [hkey]⟩
  rw [ofFilter_condition hcondition, entryHolds_map hk, fieldHolds, if_pos hoperator]
  cases hget : record.get k with
  | error f => exact .error f _
  | ok actual =>
    rw [valueAt_eq hget]
    have hagrees := agrees_condition h hscalar hsingle actual
    intro b hb
    refine hagrees b ?_
    rw [← hb]
    exact (if_pos (isNativeCondition_condition kept)).symm

theorem agrees_related {es inner : Fields}
    (h : ∀ record, Agrees (holds record es) (holdsOf record inner)) (actual : Value) :
    Agrees
      (if isNull actual then .ok false
        else match items? actual with
          | some xs => Predicate.anyOf (fun x => holds x es) xs
          | none =>
            if isScalar actual then .error (.unsupportedPredicate (foreignKey es) "InMemoryStore")
            else holds actual es)
      (match items? actual with
        | some xs => xs.any fun x => holdsOf x inner
        | none => !isNull actual && holdsOf actual inner) := by
  by_cases hnull : isNull actual = true
  · obtain rfl : actual = .none := by
      cases actual <;> simp_all [isNull]
    exact .ok false
  · rw [if_neg hnull, eq_false_of_ne_true hnull]
    cases items? actual with
    | some xs => exact .anyOf h
    | none =>
      dsimp only
      split
      · exact .error _ _
      · exact h actual

theorem agrees_relationField {inner : Fields} (hne : inner ≠ [])
    (hnames : ∀ e ∈ inner, NamesField e.1)
    (hinner : ∀ record, Agrees (holds record (ofFilters inner)) (holdsOf record inner)) {k : Key}
    (hk : junction? k = none) (record : Value) :
    Agrees (entryHolds record k (ofFilter (.map inner)))
      (fieldHolds (valueAt record k) (.map inner)) := by
  have hoperator : hasOperator inner = false := by
    rw [hasOperator, List.any_eq_false]
    intro e he
    simp [operator?_eq_none (hnames e he).2.2]
  obtain ⟨e, es, rfl⟩ := List.exists_cons_of_ne_nil hne
  obtain ⟨hfirst, -⟩ := List.forall_mem_cons.mp hnames
  have hcondition : isCondition (e :: es) = false := by
    have hnone := List.any_eq_false.mp hoperator e List.mem_cons_self
    simp [isCondition, hnone]
  have hnative : isNativeCondition (ofFilters (e :: es)) = false := by
    have hkey : isNativeKey e.1 = false := hfirst.1
    simp [ofFilters, isNativeCondition, hkey]
  rw [ofFilter_relation hcondition, entryHolds_map hk, fieldHolds, if_neg (by simp [hoperator])]
  cases hget : record.get k with
  | error f => exact .error f _
  | ok actual =>
    rw [valueAt_eq hget]
    intro b hb
    refine agrees_related hinner actual b ?_
    rw [← hb]
    simp only [bind, Except.bind, hnative]
    rfl

/-- The predicate of filters that rules have passed says what the filters say. -/
theorem agrees_kept {rules : Entries Rule} {es : Fields} (h : Kept rules es)
    (hclear : Clear rules es) (record : Value) :
    Agrees (holds record (ofFilters es)) (holdsOf record es) := by
  induction h generalizing record with
  | nil => exact .ok true
  | condition rule held ne single _ ih =>
    obtain ⟨hname, hscalar, hrest⟩ := (throughout_condition rule).mp hclear
    rw [ofFilters, holds, holdsOf]
    exact (agrees_conditionField held ne hscalar single hname.2.1 record).and (ih hrest record)
  | relation rule _ ne _ ihinner ih =>
    obtain ⟨hname, ⟨-, hinner⟩, hrest⟩ := (throughout_relation rule).mp hclear
    rw [ofFilters, holds, holdsOf]
    exact (agrees_relationField ne hinner.names (ihinner hinner) hname.2.1 record).and
      (ih hrest record)

end Reading

open Reading

/-- **The predicate means what the filters say.** Wherever evaluating the predicate of sanitized
filters gives an answer for a record, it is the answer of the direct reading. -/
theorem predicate_means_filters (policy : FieldPolicy) (filters record : Value) (b : Bool)
    (hkeyed : filters.Keyed)
    (hclear : Clear policy.filterable (policy.sanitizeFilters filters.asFields))
    (heval : valueHolds record (.map (ofFilters (policy.sanitizeFilters filters.asFields))) =
      .ok b) :
    holdsOf record (policy.sanitizeFilters filters.asFields) = b := by
  exact agrees_kept (policy.kept_sanitizeFilters hkeyed) hclear record b heval

/-! ## Members of a team -/

/-- Searching, comparing and negating for the name of a member, in any case, and for that of the team. -/
def memberPolicy : FieldPolicy where
  filterable := [(.text "name", .operators [.contains, .mode, .ne, .not, .startsWith]),
    (.text "team", .nested [(.text "name", .operators [.isIn])])]

/-- What is denied of a member's name: it starts with a capital B. -/
def deniedName : Fields := [(.text Operator.startsWith.token, .text "B")]

/-- What is asked of a member's name: the inequality is not read, since a negation stands beside it. -/
def memberName : Fields :=
  [(.text Operator.contains.token, .text "ob"), (.text Operator.mode.token, .text "insensitive"),
    (.text Operator.ne.token, .text "BOB"), (.text Operator.not.token, .map deniedName)]

def teamName : Fields := [(.text Operator.isIn.token, .list [.text "Core", .text "Growth"])]

/-- Filters on a member's name and team, and on a field that the policy does not list. -/
def memberFilters : Value :=
  .map [(.text "name", .map memberName), (.text "team", .map [(.text "name", .map teamName)]),
    (.text "secret", .int 1)]

def member : Value :=
  .map [(.text "name", .text "bOB"), (.text "team", .object 1 [(.text "name", .text "Growth")])]

/-- The mode acts on the search alone, so the negation admits a small b. -/
theorem predicate_means_filters_member :
    memberFilters.Keyed ∧
      Clear memberPolicy.filterable (memberPolicy.sanitizeFilters memberFilters.asFields) ∧
      valueHolds member (.map (ofFilters (memberPolicy.sanitizeFilters memberFilters.asFields))) =
        .ok true ∧
      holdsOf member (memberPolicy.sanitizeFilters memberFilters.asFields) = true := by
  have hkeyed : memberFilters.Keyed := by
    simp only [memberFilters, memberName, deniedName, teamName, Value.Keyed, Value.KeyedEntries]
    decide
  have hname : ScalarInequality memberName := by
    unfold ScalarInequality
    decide
  have hdenied : ScalarInequality deniedName := by
    unfold ScalarInequality
    decide
  have hteam : ScalarInequality teamName := by
    unfold ScalarInequality
    decide
  have hclear : Clear memberPolicy.filterable
      (memberPolicy.sanitizeFilters memberFilters.asFields) := by
    refine ⟨⟨rfl, rfl, rfl⟩, ?_, ⟨rfl, rfl, rfl⟩, ⟨trivial, ⟨rfl, rfl, rfl⟩, ?_, trivial⟩, trivial⟩
    · intro n d hd
      match n with
      | 0 =>
        obtain rfl := Option.some.inj hd
        exact hname
      | 1 =>
        obtain rfl := Option.some.inj hd
        exact hdenied
      | n + 2 =>
        rw [layer_succ rfl, layer_succ_eq_none rfl] at hd
        nomatch hd
    · intro n d hd
      match n with
      | 0 =>
        obtain rfl := Option.some.inj hd
        exact hteam
      | n + 1 =>
        rw [layer_succ_eq_none rfl] at hd
        nomatch hd
  have heval : valueHolds member
      (.map (ofFilters (memberPolicy.sanitizeFilters memberFilters.asFields))) = .ok true := rfl
  exact ⟨hkeyed, hclear, heval,
    predicate_means_filters memberPolicy memberFilters member true hkeyed hclear heval⟩

end Listing
