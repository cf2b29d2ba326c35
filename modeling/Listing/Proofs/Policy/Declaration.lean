import Listing.Policy.Declaration
import Listing.Proofs.Direction
import Listing.Proofs.Operator
import Listing.Proofs.Value.Equality
import Listing.Proofs.Value.Written
import Mathlib.Data.List.Induction

/-!
# Which declarations are accepted

A policy is declared by exactly those sections that have the shapes of filter rules, of searchable names
and of sort rules. Any other section is meant to fail as a fault of the declaration. It does not where
the searchable names are no row at all, where one of them cannot be a member of a set, and where the first
faulty value of a section holds an integer with more digits than a text may have, so that no message can
quote the value.
-/

namespace Listing

open Outcome

/-- Whether a failure is none of a declaration. -/
def Failure.Foreign (e : Failure) : Prop := e.category ≠ .policy

/-! ## Shapes -/

namespace Value

inductive RowOf (xs : List Value) : Value → Prop
  | list : RowOf xs (.list xs)
  | tuple : RowOf xs (.tuple xs)
  | set : RowOf xs (.set xs)

/-- Whether a value names an operator: its token, with the mark or without. -/
def NamesOperator (v : Value) : Prop :=
  ∃ op : Operator, ∃ s, v.text? = some s ∧ (s = op.token ∨ s = op.word)

def NamesField (v : Value) : Prop := ∃ s, v.text? = some s ∧ s ≠ ""

/-- Whether a value is a rule for a sort: a truth value, or a word for a direction. -/
def IsSortRule (v : Value) : Prop :=
  (∃ b, v = .bool b) ∨ ∃ d : Direction, ∃ s, v.text? = some s ∧ d.Names s

/-- Whether a value is a rule for a filter: a rule or a policy itself, a mapping to rules, or a row of
operators. -/
inductive IsRule : Value → Prop
  | rule (r : Rule) : IsRule (.rule r)
  | policy (p : FieldPolicy) : IsRule (.policy p)
  | nested {es : Fields} (rules : ∀ e ∈ es, IsRule e.2) : IsRule (.map es)
  | operators {v : Value} {xs : List Value} (row : RowOf xs v) (named : ∀ x ∈ xs, x.NamesOperator) :
      IsRule v

/-- Whether values are good up to one that is not and that cannot be written down. -/
def FaultUnwritten (xs : List Value) (good : Value → Prop) : Prop :=
  FirstOf xs good fun x => ¬good x ∧ ¬Succeeds x.written

/-- Whether the first fault in a value, taken for a rule of a filter, cannot be written down. -/
inductive RuleUnwritten : Value → Prop
  | scalar {n : Int} (long : ¬Succeeds (written (.int n))) : RuleUnwritten (.int n)
  | nested {before after : Fields} {k : Key} {v : Value} (rules : ∀ e ∈ before, IsRule e.2)
      (fault : RuleUnwritten v) : RuleUnwritten (.map (before ++ (k, v) :: after))
  | operators {v : Value} {xs : List Value} (row : RowOf xs v)
      (fault : FaultUnwritten xs NamesOperator) : RuleUnwritten v

/-- Whether a value declares what may be filtered: a mapping to rules. -/
def DeclaresFilters (v : Value) : Prop := ∃ es, v = .map es ∧ ∀ e ∈ es, e.2.IsRule

/-- Whether a value declares what is searched: something else than a text that yields names. -/
def DeclaresSearch (v : Value) : Prop :=
  v.text? = Option.none ∧ ∃ xs, v.iterate = .ok xs ∧ ∀ x ∈ xs, x.NamesField

/-- Whether a value declares what may be sorted by: a mapping to rules for a sort. -/
def DeclaresSort (v : Value) : Prop := ∃ es, v = .map es ∧ ∀ e ∈ es, e.2.IsSortRule

/-- Whether the first fault in a value, taken for the filter rules of a policy, cannot be written down. -/
def FiltersUnwritten (v : Value) : Prop := v.RuleUnwritten ∧ ∃ es, v = .map es

/-- Whether a value, taken for searchable names, fails in another way than by a fault of the declaration:
it yields no values, or one that cannot be a member of a set, or its first fault cannot be written down. -/
inductive SearchAstray (v : Value) : Prop
  | scalar (text : v.text? = Option.none) (scalar : ∀ xs, v.iterate ≠ .ok xs) : SearchAstray v
  | member {xs : List Value} {x : Value} (text : v.text? = Option.none) (yields : v.iterate = .ok xs)
      (mem : x ∈ xs) (fault : x.memberFault? ≠ Option.none) : SearchAstray v
  | unwritten {xs : List Value} (text : v.text? = Option.none) (yields : v.iterate = .ok xs)
      (fault : FaultUnwritten xs NamesField) : SearchAstray v

/-- Whether the first fault in a value, taken for sort rules, cannot be written down. -/
def SortUnwritten (v : Value) : Prop :=
  ∃ es, v = .map es ∧ FaultUnwritten (es.map (·.2)) IsSortRule

end Value

/-! ## Messages -/

/-- A value that is at fault is told as such if it can be written down. -/
theorem judges_quoting {α : Type} (v : Value) (fault : String → PolicyFault) (field : Option Key) :
    Judges Failure.Foreign (v.written >>= fun quoted => throw (.policy (fault quoted) field) :
      Except Failure α) False (¬Succeeds v.written) := by
  by_cases hwritten : Succeeds v.written
  · obtain ⟨quoted, hquoted⟩ := hwritten
    rw [hquoted]
    exact .of_error rfl id (iff_of_false (fun h => h ⟨quoted, rfl⟩) fun h => h rfl)
  · refine .of_error (e := .longInteger) ?_ id (iff_of_true hwritten nofun)
    rw [v.written_failsUnless.eq_error hwritten]
    rfl

theorem judges_fault {α : Type} {valid astray : Prop} (fault : PolicyFault) (field : Option Key)
    (hvalid : ¬valid) (hastray : ¬astray) :
    Judges Failure.Foreign (.error (.policy fault field) : Except Failure α) valid astray :=
  .of_error rfl hvalid (iff_of_false hastray fun h => h rfl)

/-! ## Filters -/

theorem Operator.exists_ofValueWord?_iff {v : Value} :
    (∃ op, Operator.ofValueWord? v = some op) ↔ v.NamesOperator := by
  refine exists_congr fun op => ?_
  rw [Operator.ofValueWord?, Option.bind_eq_some_iff]
  exact exists_congr fun s => and_congr_right fun _ => Operator.ofWord?_eq_some

theorem Operator.declared_judges (field : Option Key) (tokens : List Value) :
    Judges Failure.Foreign (Operator.declared field tokens) (∀ x ∈ tokens, x.NamesOperator)
      (Value.FaultUnwritten tokens Value.NamesOperator) := by
  refine .mapM fun token _ => ?_
  rw [← Operator.exists_ofValueWord?_iff]
  split
  · next op hop => exact .of_ok rfl ⟨op, hop⟩ fun h => h.1 ⟨op, hop⟩
  · next hnone =>
    have hunnamed : ¬∃ op, Operator.ofValueWord? token = some op := by simp [hnone]
    exact (judges_quoting token .unknownOperator field).congr (iff_of_false id hunnamed)
      (and_iff_right hunnamed).symm

namespace Value

theorem isRule_map_iff {es : Fields} : IsRule (.map es) ↔ ∀ e ∈ es, e.2.IsRule := by
  constructor
  · rintro (_ | _ | rules | ⟨⟨⟩, -⟩)
    exact rules
  · exact .nested

theorem ruleUnwritten_map_iff {es : Fields} :
    RuleUnwritten (.map es) ↔ FirstOf es (·.2.IsRule) (·.2.RuleUnwritten) := by
  constructor
  · rintro (_ | @⟨before, after, k, v, rules, fault⟩ | ⟨⟨⟩, -⟩)
    exact ⟨before, (k, v), after, rfl, rules, fault⟩
  · rintro ⟨before, ⟨k, v⟩, after, rfl, rules, fault⟩
    exact .nested rules fault

theorem RowOf.isRule_iff {v : Value} {xs : List Value} (h : RowOf xs v) :
    v.IsRule ↔ ∀ x ∈ xs, x.NamesOperator := by
  refine ⟨fun hrule => ?_, .operators h⟩
  cases h <;> · rcases hrule with _ | _ | _ | ⟨⟨⟩, named⟩; exact named

theorem RowOf.ruleUnwritten_iff {v : Value} {xs : List Value} (h : RowOf xs v) :
    v.RuleUnwritten ↔ FaultUnwritten xs NamesOperator := by
  refine ⟨fun hrule => ?_, .operators h⟩
  cases h <;> · rcases hrule with _ | _ | ⟨⟨⟩, fault⟩; exact fault

end Value

theorem Rule.declaredRow_judges (field : Key) {v : Value} {xs : List Value} (h : v.RowOf xs) :
    Judges Failure.Foreign (Operator.declared (some field) xs >>= fun ops => pure (ofOperators ops))
      v.IsRule v.RuleUnwritten :=
  (Operator.declared_judges (some field) xs).map.congr h.isRule_iff.symm h.ruleUnwritten_iff.symm

mutual

theorem Rule.declared_judges (field : Key) : ∀ v : Value,
    Judges Failure.Foreign (Rule.declared field v) v.IsRule v.RuleUnwritten
  | .rule r => .of_ok rfl (.rule r) nofun
  | .policy p => .of_ok rfl (.policy p) nofun
  | .map es => (Rule.declaredFields_judges es).map.congr Value.isRule_map_iff.symm
      Value.ruleUnwritten_map_iff.symm
  | .list _ => Rule.declaredRow_judges field .list
  | .tuple _ => Rule.declaredRow_judges field .tuple
  | .set _ => Rule.declaredRow_judges field .set
  | .int _ => (judges_quoting _ .ruleShape (some field)).congr
      (iff_of_false id (by rintro (_ | _ | _ | ⟨⟨⟩, -⟩)))
      ⟨.scalar, by rintro (long | _ | ⟨⟨⟩, -⟩); exact long⟩
  | .none | .bool _ | .float _ | .text _ | .bytes _ | .operator _ | .direction _ | .object _ _
  | .items _ => judges_fault (.ruleShape _) (some field) (by rintro (_ | _ | _ | ⟨⟨⟩, -⟩))
      (by rintro (_ | _ | ⟨⟨⟩, -⟩))

theorem Rule.declaredFields_judges : ∀ es : Fields,
    Judges Failure.Foreign (Rule.declaredFields es) (∀ e ∈ es, e.2.IsRule)
      (FirstOf es (·.2.IsRule) (·.2.RuleUnwritten))
  | [] => .of_ok rfl (by simp) (by simp [FirstOf])
  | (k, v) :: rest =>
    .cons (Rule.declared_judges k v) (Rule.declaredFields_judges rest)

end

theorem Rule.declaredFilterable_judges (v : Value) :
    Judges Failure.Foreign (Rule.declaredFilterable v) v.DeclaresFilters v.FiltersUnwritten := by
  unfold declaredFilterable
  split
  · next es =>
    refine (Rule.declaredFields_judges es).congr ⟨fun h => ⟨es, rfl, h⟩, ?_⟩ ?_
    · rintro ⟨es', ⟨⟩, h⟩
      exact h
    · rw [← Value.ruleUnwritten_map_iff]
      exact (and_iff_left ⟨es, rfl⟩).symm
  · next hmap =>
    refine judges_fault _ _ ?_ ?_
    · rintro ⟨es, rfl, -⟩
      exact hmap es rfl
    · rintro ⟨-, es, rfl⟩
      exact hmap es rfl

/-! ## Searchable names -/

namespace Value

theorem text?_of_same {a b : Value} (h : same a b = true) : a.text? = b.text? := by
  rw [same.eq_def] at h
  split at h
  case h_8 =>
    split at h
    · next hs ht => rw [hs, ht, beq_iff_eq.mp h]
    · next hs ht => rw [hs, ht]
    · cases h
  all_goals rfl

theorem namesField_of_same {a b : Value} (h : same a b = true) : a.NamesField ↔ b.NamesField := by
  rw [NamesField, NamesField, text?_of_same h]

/-- Among the distinct values of a row is the first of the row that is no name. -/
theorem distinct_names (xs : List Value) :
    ((∀ x ∈ distinct xs, x.NamesField) ↔ ∀ x ∈ xs, x.NamesField) ∧
      (FaultUnwritten (distinct xs) NamesField ↔ FaultUnwritten xs NamesField) := by
  induction xs using List.reverseRecOn with
  | nil => exact ⟨Iff.rfl, Iff.rfl⟩
  | append_singleton xs x ih =>
    obtain ⟨hnames, hfault⟩ := ih
    have hstep : distinct (xs ++ [x]) =
        if (distinct xs).any (same x ·) then distinct xs else distinct xs ++ [x] := by
      rw [distinct, List.foldl_append]
      rfl
    unfold FaultUnwritten at hfault ⊢
    rw [hstep, firstOf_concat, List.forall_mem_append, List.forall_mem_singleton]
    split
    · next hany =>
      -- an equal value is a name too, if all before are names
      obtain ⟨y, hy, hsame⟩ := List.any_eq_true.mp hany
      have hx : (∀ z ∈ xs, z.NamesField) → x.NamesField := fun h =>
        (namesField_of_same hsame).mpr (hnames.mpr h y hy)
      refine ⟨hnames.trans (and_iff_left_of_imp hx).symm, hfault.trans ?_⟩
      exact (or_iff_left fun h => h.2.1 (hx h.1)).symm
    · rw [List.forall_mem_append, List.forall_mem_singleton, firstOf_concat, hnames, hfault]
      exact ⟨Iff.rfl, Iff.rfl⟩

mutual

theorem memberFault?_eq {e : Failure} : ∀ {v : Value}, v.memberFault? = some e →
    v.text? = Option.none ∧ ∃ kind, e = .unhashable kind
  | tuple _, h => ⟨rfl, memberFaultAmong?_eq h⟩
  | list _, h => ⟨rfl, _, (Option.some.inj h).symm⟩
  | set _, h => ⟨rfl, _, (Option.some.inj h).symm⟩
  | map _, h => ⟨rfl, _, (Option.some.inj h).symm⟩
  | rule (.nested _), h => ⟨rfl, _, (Option.some.inj h).symm⟩
  | policy _, h => ⟨rfl, _, (Option.some.inj h).symm⟩
  | none, h | bool _, h | int _, h | float _, h | text _, h | bytes _, h | operator _, h
  | direction _, h | object _ _, h | items _, h | rule (.operators _), h => nomatch h

theorem memberFaultAmong?_eq {e : Failure} : ∀ {xs : List Value}, memberFaultAmong? xs = some e →
    ∃ kind, e = .unhashable kind
  | [], h => nomatch h
  | x :: xs, h => by
    rw [memberFaultAmong?] at h
    rcases Option.or_eq_some_iff.mp h with hx | ⟨-, hxs⟩
    · exact (memberFault?_eq hx).2
    · exact memberFaultAmong?_eq hxs

end

theorem memberFaultAmong?_eq_none {xs : List Value} :
    memberFaultAmong? xs = Option.none ↔ ∀ x ∈ xs, x.memberFault? = Option.none := by
  induction xs with
  | nil => exact iff_of_true rfl (by simp)
  | cons x xs ih => rw [memberFaultAmong?, Option.or_eq_none_iff, ih, List.forall_mem_cons]

theorem memberFaultAmong?_eq_none_of_names {xs : List Value} (h : ∀ x ∈ xs, x.NamesField) :
    memberFaultAmong? xs = Option.none := by
  rw [memberFaultAmong?_eq_none]
  intro x hx
  obtain ⟨s, hs, -⟩ := h x hx
  cases hfault : x.memberFault? with
  | none => rfl
  | some e => nomatch hs.symm.trans (memberFault?_eq hfault).1

theorem members_eq {v : Value} {xs : List Value} (hxs : v.iterate = .ok xs) :
    v.members = match memberFaultAmong? xs with
      | some e => .error e
      | Option.none => .ok (distinct xs) := by
  rw [members, hxs]
  rfl

theorem iterate_error {v : Value} {e : Failure} (h : v.iterate = .error e) :
    e = .notIterable v.kind := by
  unfold iterate at h
  split at h
  case h_9 => exact (Except.error.inj h).symm
  all_goals nomatch h

theorem declaresSearch_iff {v : Value} {xs : List Value} (htext : v.text? = Option.none)
    (hxs : v.iterate = .ok xs) : v.DeclaresSearch ↔ ∀ x ∈ xs, x.NamesField := by
  refine ⟨?_, fun h => ⟨htext, xs, hxs, h⟩⟩
  rintro ⟨-, ys, hys, h⟩
  obtain rfl := Except.ok.inj (hxs.symm.trans hys)
  exact h

theorem searchAstray_iff {v : Value} {xs : List Value} (htext : v.text? = Option.none)
    (hxs : v.iterate = .ok xs) :
    v.SearchAstray ↔ memberFaultAmong? xs ≠ Option.none ∨ FaultUnwritten xs NamesField := by
  rw [Ne, memberFaultAmong?_eq_none]
  push Not
  constructor
  · rintro (⟨-, scalar⟩ | @⟨ys, x, -, hys, mem, fault⟩ | @⟨ys, -, hys, fault⟩)
    · exact absurd hxs (scalar xs)
    · obtain rfl := Except.ok.inj (hxs.symm.trans hys)
      exact .inl ⟨x, mem, fault⟩
    · obtain rfl := Except.ok.inj (hxs.symm.trans hys)
      exact .inr fault
  · rintro (⟨x, mem, fault⟩ | fault)
    · exact .member htext hxs mem fault
    · exact .unwritten htext hxs fault

end Value

namespace FieldPolicy

theorem searchableName_judges (v : Value) :
    Judges Failure.Foreign (searchableName v) v.NamesField (¬v.NamesField ∧ ¬Succeeds v.written) := by
  have hfault : ¬v.NamesField → Judges Failure.Foreign (searchableName.fault v) v.NamesField
      (¬v.NamesField ∧ ¬Succeeds v.written) := fun h =>
    (judges_quoting v .searchableName none).congr (iff_of_false id h) (and_iff_right h).symm
  unfold searchableName
  split
  · next s hs =>
    split
    · next hempty =>
      refine hfault ?_
      rintro ⟨t, ht, hne⟩
      exact hne ((Option.some.inj (ht.symm.trans hs)).trans hempty)
    · next hne => exact .of_ok rfl ⟨s, hs, hne⟩ fun h => h.1 ⟨s, hs, hne⟩
  · next hnone =>
    refine hfault ?_
    rintro ⟨t, ht, -⟩
    nomatch hnone.symm.trans ht

theorem declaredSearchable_judges (v : Value) :
    Judges Failure.Foreign (declaredSearchable v) v.DeclaresSearch v.SearchAstray := by
  unfold declaredSearchable
  split
  · next htext =>
    have hsome : v.text? ≠ none := Option.isSome_iff_ne_none.mp htext
    refine judges_fault _ _ (fun h => hsome h.1) ?_
    rintro (⟨text, -⟩ | ⟨text, -⟩ | ⟨text, -⟩) <;> exact hsome text
  · next htext =>
    have hnone : v.text? = none := Option.not_isSome_iff_eq_none.mp htext
    cases hxs : v.iterate with
    | error e =>
      obtain rfl := Value.iterate_error hxs
      have hscalar : ∀ xs, v.iterate ≠ .ok xs := fun xs h => nomatch hxs.symm.trans h
      refine .of_error (e := .notIterable v.kind) ?_ ?_ (iff_of_true (.scalar hnone hscalar) nofun)
      · rw [Value.members, hxs]
        rfl
      · rintro ⟨-, xs, h, -⟩
        exact hscalar xs h
    | ok xs =>
      refine Judges.congr ?_ (Value.declaresSearch_iff hnone hxs).symm
        (Value.searchAstray_iff hnone hxs).symm
      rw [Value.members_eq hxs]
      cases hfault : Value.memberFaultAmong? xs with
      | some e =>
        obtain ⟨kind, rfl⟩ := Value.memberFaultAmong?_eq hfault
        refine .of_error rfl (fun hnames => ?_) (iff_of_true (.inl nofun) nofun)
        rw [Value.memberFaultAmong?_eq_none_of_names hnames] at hfault
        cases hfault
      | none =>
        obtain ⟨hnames, hunwritten⟩ := Value.distinct_names xs
        refine Judges.congr ?_ hnames (hunwritten.trans (or_iff_right (by simp)).symm)
        exact .mapM fun x _ => searchableName_judges x

/-! ## Sort rules -/

theorem sortRule_judges (field : Key) (v : Value) :
    Judges Failure.Foreign (SortRule.declared field v) v.IsSortRule
      (¬v.IsSortRule ∧ ¬Succeeds v.written) := by
  have hword : (∃ d, Direction.ofValue? v = some d) ↔
      ∃ d : Direction, ∃ s, v.text? = some s ∧ d.Names s := by
    refine exists_congr fun d => ?_
    rw [Direction.ofValue?, Option.bind_eq_some_iff]
    exact exists_congr fun s => and_congr_right fun _ => Direction.ofWord?_eq_some_iff
  rw [Value.IsSortRule, ← hword]
  unfold SortRule.declared
  split
  · next b => exact .of_ok rfl (.inl ⟨b, rfl⟩) fun h => h.1 (.inl ⟨b, rfl⟩)
  · next hbool =>
    split
    · next d hd => exact .of_ok rfl (.inr ⟨d, hd⟩) fun h => h.1 (.inr ⟨d, hd⟩)
    · next hnone =>
      have hneither : ¬((∃ b, v = .bool b) ∨ ∃ d, Direction.ofValue? v = some d) := by
        rintro (⟨b, hb⟩ | ⟨d, hd⟩)
        · exact hbool b hb
        · nomatch hnone.symm.trans hd
      exact (judges_quoting v .sortRule (some field)).congr (iff_of_false id hneither)
        (and_iff_right hneither).symm

theorem declaredSortable_judges (v : Value) :
    Judges Failure.Foreign (declaredSortable v) v.DeclaresSort v.SortUnwritten := by
  unfold declaredSortable
  split
  · next es =>
    have hentries := Judges.mapM fun (e : Key × Value) (_ : e ∈ es) =>
      (sortRule_judges e.1 e.2).map (f := fun r => (e.1, r))
    refine hentries.congr ⟨fun h => ⟨es, rfl, h⟩, ?_⟩ ?_
    · rintro ⟨es', ⟨⟩, h⟩
      exact h
    · refine ⟨fun h => ⟨es, rfl, firstOf_map.mpr h⟩, ?_⟩
      rintro ⟨es', ⟨⟩, h⟩
      exact firstOf_map.mp h
  · next hmap =>
    refine judges_fault _ _ ?_ ?_
    · rintro ⟨es, rfl, -⟩
      exact hmap es rfl
    · rintro ⟨es, rfl, -⟩
      exact hmap es rfl

/-! ## Declarations -/

/-- Whether sections, taken for a declaration, fail in another way than by a fault of the declaration: the
filter rules have a fault that cannot be written down, or, behind sections that are as they should be, the
searchable names go astray or the sort rules have such a fault. -/
def Astray (filterable searchable sortable : Value) : Prop :=
  filterable.FiltersUnwritten ∨ filterable.DeclaresFilters ∧
    (searchable.SearchAstray ∨ searchable.DeclaresSearch ∧ sortable.SortUnwritten)

theorem declare_judges (filterable searchable sortable : Value) :
    Judges Failure.Foreign (declare filterable searchable sortable)
      (filterable.DeclaresFilters ∧ searchable.DeclaresSearch ∧ sortable.DeclaresSort)
      (Astray filterable searchable sortable) :=
  (Rule.declaredFilterable_judges filterable).bind fun _ =>
    (declaredSearchable_judges searchable).bind fun _ => (declaredSortable_judges sortable).map

/-- Exactly the sections that have the shapes of one declare a policy, and of the others all fail by a
fault of the declaration but those that go astray. -/
theorem declared_iff (filterable searchable sortable : Value) :
    ((∃ p, declare filterable searchable sortable = .ok p) ↔
      filterable.DeclaresFilters ∧ searchable.DeclaresSearch ∧ sortable.DeclaresSort) ∧
    ((∃ e, declare filterable searchable sortable = .error e ∧ e.category = .policy) ↔
      ¬(filterable.DeclaresFilters ∧ searchable.DeclaresSearch ∧ sortable.DeclaresSort) ∧
        ¬Astray filterable searchable sortable) ∧
    ((∃ e, declare filterable searchable sortable = .error e ∧ e.category ≠ .policy) ↔
      Astray filterable searchable sortable) := by
  have h := declare_judges filterable searchable sortable
  have hmeant := h.meant_iff
  simp only [Failure.Foreign, Decidable.not_not] at hmeant
  exact ⟨h.ok_iff, hmeant, h.stray_iff⟩

/-- A number in place of the searchable names is no fault of the declaration. -/
theorem number_not_searched :
    declare (.map []) (.int 5) (.map []) = .error (.notIterable "int") ∧
      (Failure.notIterable "int").category = .type := ⟨rfl, rfl⟩

end FieldPolicy
end Listing
