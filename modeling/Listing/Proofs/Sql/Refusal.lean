import Listing.Proofs.Sql.Condition
import Listing.Proofs.Sql.Faults
import Listing.Proofs.Sql.Graph
import Listing.Proofs.Sql.Within
import Listing.Proofs.Value.Written
import Listing.Sql.Sample
import Mathlib.Algebra.Ring.Nat

/-!
# Why a predicate has no clause

A predicate with an entry at fault is refused, and nothing else is: if no operand that is searched for
holds an integer with more digits than a text may have, a predicate without faults has a clause, about
members of the models reached only.
-/

namespace Listing
namespace Sql

open Outcome Predicate

variable {schema : Schema} {registry : Registry} {m : Model} {t : Term} {k : Key} {v : Value}
  {es rest inner : Fields} {f : Failure}

/-! ## Operands -/

def IsScalar (v : Value) : Prop := (∃ n, v = .int n) ∨ ∃ s, v.text? = some s

/-- Whether a value is a row for a key: of integers and texts where a native key takes one, of predicates
where the key names a junction. -/
def IsRow (k : Key) (v : Value) : Prop :=
  (∃ key, nativeKey? k = some key ∧ key.takesRow = true) ∧
      (∃ xs, v = .list xs ∧ ∀ x ∈ xs, IsScalar x) ∨
    (∃ j, junction? k = some j) ∧ ∃ ps : List Fields, v = .list (ps.map .map)

/-- Whether a value is an operand for a key of a condition. -/
structure IsOperand (registry : Registry) (k : Key) (v : Value) : Prop where
  kind : IsScalar v ∨ IsRow k v ∨ ∃ inner, v = .map inner
  /-- No integer in it has more digits than a text may have, unless the operator of the key is a standard
  one other than a search, which writes no integers. -/
  written : ∀ op, k.name?.bind registry.get? = some op →
    v.Short ∨ ∃ key, op = .ofKey key ∧ key.place? = none

theorem IsRow.exists_list {k : Key} {v : Value} (h : IsRow k v) : ∃ xs, v = .list xs := by
  rcases h with ⟨-, xs, rfl, -⟩ | ⟨-, ps, rfl⟩
  · exact ⟨xs, rfl⟩
  · exact ⟨_, rfl⟩

/-- Conditions of such operands, with or without modes, and with conditions that they negate. -/
inductive PlainCondition (registry : Registry) : Fields → Prop
  | nil : PlainCondition registry []
  | mode {k : Key} {v : Value} {rest : Fields} : isModeKey k = true →
      PlainCondition registry rest → PlainCondition registry ((k, v) :: rest)
  | negated {k : Key} {inner rest : Fields} : isModeKey k = false → isNotKey k = true →
      PlainCondition registry inner → PlainCondition registry rest →
      PlainCondition registry ((k, .map inner) :: rest)
  | operand {k : Key} {v : Value} {rest : Fields} : isModeKey k = false →
      (isNotKey k = true → v.fields? = none) → IsOperand registry k v → PlainCondition registry rest →
      PlainCondition registry ((k, v) :: rest)

/-- Predicates of such conditions: a junction has a predicate or a row of them, and any other key has an
integer, a text, a row for it, such a condition or, where a mapping does not read as one, a predicate. -/
inductive PlainPredicate (registry : Registry) : Fields → Prop
  | nil : PlainPredicate registry []
  | junction {k : Key} {j : Junction} {inner rest : Fields} : junction? k = some j →
      PlainPredicate registry inner → PlainPredicate registry rest →
      PlainPredicate registry ((k, .map inner) :: rest)
  | junctions {k : Key} {j : Junction} {ps : List Fields} {rest : Fields} : junction? k = some j →
      (∀ inner ∈ ps, PlainPredicate registry inner) → PlainPredicate registry rest →
      PlainPredicate registry ((k, .list (ps.map .map)) :: rest)
  | bare {k : Key} {v : Value} {rest : Fields} : junction? k = none → IsScalar v ∨ IsRow k v →
      PlainPredicate registry rest → PlainPredicate registry ((k, v) :: rest)
  | condition {k : Key} {inner rest : Fields} : junction? k = none → isNativeCondition inner = true →
      PlainCondition registry inner → PlainPredicate registry rest →
      PlainPredicate registry ((k, .map inner) :: rest)
  | nested {k : Key} {inner rest : Fields} : junction? k = none → isNativeCondition inner = false →
      PlainPredicate registry inner → PlainPredicate registry rest →
      PlainPredicate registry ((k, .map inner) :: rest)

/-! ## Operators -/

/-- Whether an operator makes a clause of its term from every operand that has a text. -/
def NativeOperator.Builds (op : NativeOperator) : Prop :=
  ∀ t v insensitive, v.Short → ∃ c, op.apply t v insensitive = .ok c ∧
    ∀ (schema : Schema) (m : Model), m.Names t → c.Within schema m

/-- Whether each operator of a registry is a standard one or makes clauses of its term. -/
def Registry.Lawful (registry : Registry) : Prop :=
  ∀ op ∈ registry.operators, (∃ key, op = .ofKey key) ∨ op.Builds

theorem Registry.Lawful.remove (h : registry.Lawful) (name : String) : (registry.remove name).Lawful :=
  fun op hop => h op (List.mem_of_mem_filter hop)

theorem Registry.Lawful.register (h : registry.Lawful) {op : NativeOperator}
    (hop : (∃ key, op = .ofKey key) ∨ op.Builds) : (registry.register op).Lawful := by
  intro op' hop'
  rcases List.mem_append.mp hop' with hmem | hmem
  · exact h.remove op.name op' hmem
  · obtain rfl := List.mem_singleton.mp hmem
    exact hop

theorem Registry.Lawful.registerAll (h : registry.Lawful) {ops : List NativeOperator}
    (hops : ∀ op ∈ ops, (∃ key, op = .ofKey key) ∨ op.Builds) : (registry.registerAll ops).Lawful := by
  induction ops generalizing registry with
  | nil => exact h
  | cons op ops ih =>
    obtain ⟨hop, hops⟩ := List.forall_mem_cons.mp hops
    exact ih (h.register hop) hops

theorem Registry.lawful_standard : Registry.standard.Lawful := by
  have hempty : ({} : Registry).Lawful := fun op hop => absurd hop List.not_mem_nil
  refine hempty.registerAll ?_
  rw [List.forall_mem_map]
  exact fun key _ => .inl ⟨key, rfl⟩

theorem Registry.get?_eq_some {name : String} {op : NativeOperator} (h : registry.get? name = some op) :
    op ∈ registry.operators ∧ op.name = name := by
  have hname := List.find?_some h
  exact ⟨List.mem_of_find?_eq_some h, beq_iff_eq.mp hname⟩

theorem IsScalar.takes (h : IsScalar v) : NativeKey.Takes .gt v := by
  rcases h with ⟨n, rfl⟩ | ⟨s, hs⟩
  · trivial
  · cases v with
    | none | bool _ => nomatch hs
    | _ => trivial

theorem IsOperand.takes (h : IsOperand registry k v) {key : NativeKey}
    (hwritten : v.Short ∨ key.place? = none) : key.Takes v := by
  have hordered : NativeKey.Takes .gt v := by
    rcases h.kind with hscalar | hrow | ⟨inner, rfl⟩
    · exact hscalar.takes
    · obtain ⟨xs, rfl⟩ := hrow.exists_list
      trivial
    · trivial
  cases key with
  | gt | gte | lt | lte => exact hordered
  | contains | startsWith | endsWith =>
    exact Value.display_succeeds (hwritten.resolve_right fun h => nomatch h)
  | _ => trivial

theorem exists_apply (hregistry : registry.Lawful) (hv : IsOperand registry k v) {op : NativeOperator}
    (hop : k.name?.bind registry.get? = some op) (t : Term) (insensitive : Bool) :
    ∃ c, op.apply t v insensitive = .ok c ∧
      ∀ (schema : Schema) (m : Model), m.Names t → c.Within schema m := by
  have hstandard : ∀ key : NativeKey, v.Short ∨ key.place? = none →
      ∃ c, NativeOperator.standardApply key t v insensitive = .ok c ∧
        ∀ (schema : Schema) (m : Model), m.Names t → c.Within schema m := by
    intro key hwritten
    obtain ⟨c, hc⟩ := (NativeOperator.standardApply_ok_iff key).mpr (hv.takes hwritten)
    exact ⟨c, hc, fun schema m ht => NativeOperator.standardApply_within ht hc⟩
  obtain ⟨name, -, hget⟩ := Option.bind_eq_some_iff.mp hop
  rcases hv.written op hop with hshort | ⟨key, rfl, hplace⟩
  · rcases hregistry op (Registry.get?_eq_some hget).1 with ⟨key, rfl⟩ | hbuilds
    · exact hstandard key (.inl hshort)
    · exact hbuilds t v insensitive hshort
  · exact hstandard key (.inr hplace)

/-! ## Conditions -/

theorem applyOperator_decides (hregistry : registry.Lawful) (ht : m.Names t) (hv : IsOperand registry k v)
    (hmode : isModeKey k = false) (hnot : isNotKey k = true → v.fields? = none) (insensitive : Bool) :
    Decides (applyOperator registry m t insensitive k v) (Unregistered registry m k v)
      (Conjunct.Has (Clause.Within schema m)) := by
  cases hop : k.name?.bind registry.get? with
  | none =>
    have hk : ¬ registry.Covers k := fun ⟨op, h⟩ => nomatch hop.symm.trans h
    exact .of_error (by rw [applyOperator, hop]) (.key hmode hnot hk)
  | some op =>
    obtain ⟨c, hc, hwithin⟩ := exists_apply hregistry hv hop t insensitive
    refine .of_ok (a := .clause c) ?_ (hwithin schema m ht) fun f h => ?_
    · rw [applyOperator, hop]
      exact bind_eq_ok.mpr ⟨c, hc, rfl⟩
    · exact ((unregistered_operand_iff hmode hnot).mp h).1 ⟨op, hop⟩

theorem conditionPart_of_not_negated (hnot : isNotKey k = true → v.fields? = none)
    (insensitive : Bool) :
    conditionPart registry m t insensitive k v = applyOperator registry m t insensitive k v := by
  cases hv : v.fields? with
  | none => exact conditionPart_of_operand hv
  | some es =>
    have hk : isNotKey k = false := Bool.eq_false_iff.mpr fun h => nomatch (hnot h).symm.trans hv
    cases v with
    | map es => rw [conditionPart, if_neg (by simp [hk])]
    | _ => nomatch hv

theorem conditionParts_cons_decides {insensitive : Bool}
    (hentry : isModeKey k = false → Decides (conditionPart registry m t insensitive k v)
      (Unregistered registry m k v) (Conjunct.Has (Clause.Within schema m)))
    (hrest : Decides (conditionParts registry m t insensitive rest)
      (fun f => ∃ e ∈ rest, Unregistered registry m e.1 e.2 f)
      fun parts => ∀ p ∈ parts, p.Has (Clause.Within schema m)) :
    Decides (conditionParts registry m t insensitive ((k, v) :: rest))
      (fun f => ∃ e ∈ (k, v) :: rest, Unregistered registry m e.1 e.2 f)
      (fun parts => ∀ p ∈ parts, p.Has (Clause.Within schema m)) := by
  simp only [List.exists_mem_cons_iff]
  rw [conditionParts]
  cases hmode : isModeKey k with
  | true =>
    refine (hrest.map fun parts hparts => hparts).congr fun f => ?_
    rw [or_iff_right]
    exact not_unregistered_mode hmode
  | false =>
    rw [if_neg Bool.false_ne_true, bind_map_left]
    refine (hentry hmode).bind fun part hpart => hrest.map fun parts hparts => ?_
    exact List.forall_mem_cons.mpr ⟨hpart, hparts⟩

/-- A condition has parts about its term unless a key in it has no operator, and then fails for one. -/
theorem conditionParts_decides (hregistry : registry.Lawful) (ht : m.Names t)
    (hes : PlainCondition registry es) (insensitive : Bool) :
    Decides (conditionParts registry m t insensitive es)
      (fun f => ∃ e ∈ es, Unregistered registry m e.1 e.2 f)
      (fun parts => ∀ p ∈ parts, p.Has (Clause.Within schema m)) := by
  induction hes generalizing insensitive with
  | nil => exact .of_ok rfl (fun p hp => nomatch hp) fun f ⟨e, he, _⟩ => nomatch he
  | mode hmode _ ih =>
    exact conditionParts_cons_decides (fun h => absurd hmode (by simp [h])) (ih insensitive)
  | @negated k inner rest _ hnot _ _ ihinner ihrest =>
    refine conditionParts_cons_decides (fun _ => ?_) (ihrest insensitive)
    rw [conditionPart, if_pos hnot]
    refine ((ihinner (isInsensitive inner)).map fun parts hparts => ?_).congr fun f =>
      (unregistered_negated_iff hnot).symm
    exact ((Clause.partwise_within schema m).conjunction hparts).negate
  | operand hmode hnot hv _ ih =>
    refine conditionParts_cons_decides (fun _ => ?_) (ih insensitive)
    rw [conditionPart_of_not_negated hnot]
    exact applyOperator_decides hregistry ht hv hmode hnot insensitive

/-! ## Predicates -/

theorem predicateParts_cons_decides
    (hentry : Decides (predicatePart schema registry m k v) (Fault schema registry m k v)
      (Conjunct.Has (Clause.Within schema m)))
    (hrest : Decides (predicateParts schema registry m rest)
      (fun f => ∃ e ∈ rest, Fault schema registry m e.1 e.2 f)
      fun parts => ∀ p ∈ parts, p.Has (Clause.Within schema m)) :
    Decides (predicateParts schema registry m ((k, v) :: rest))
      (fun f => ∃ e ∈ (k, v) :: rest, Fault schema registry m e.1 e.2 f)
      (fun parts => ∀ p ∈ parts, p.Has (Clause.Within schema m)) := by
  simp only [List.exists_mem_cons_iff]
  rw [predicateParts]
  refine hentry.bind fun part hpart => hrest.map fun parts hparts => ?_
  exact List.forall_mem_cons.mpr ⟨hpart, hparts⟩

theorem predicateAll_decides {ps : List Fields}
    (h : ∀ inner ∈ ps, Decides (predicateParts schema registry m inner)
      (fun f => ∃ e ∈ inner, Fault schema registry m e.1 e.2 f)
      fun parts => ∀ p ∈ parts, p.Has (Clause.Within schema m)) :
    Decides (predicateAll schema registry m (ps.map .map))
      (fun f => ∃ inner ∈ ps, ∃ e ∈ inner, Fault schema registry m e.1 e.2 f)
      (fun cs => ∀ c ∈ cs, c.Within schema m) := by
  induction ps with
  | nil => exact .of_ok rfl (fun c hc => nomatch hc) fun f ⟨inner, hinner, _⟩ => nomatch hinner
  | cons inner ps ih =>
    obtain ⟨hinner, hps⟩ := List.forall_mem_cons.mp h
    simp only [List.exists_mem_cons_iff]
    rw [List.map_cons, predicateAll, predicateClause]
    refine (hinner.map fun parts hparts => (Clause.partwise_within schema m).conjunction hparts).bind
      fun c hc => (ih hps).map fun cs hcs => ?_
    exact List.forall_mem_cons.mpr ⟨hc, hcs⟩

theorem fields?_of_bare (hv : IsScalar v ∨ IsRow k v) : v.fields? = none := by
  rcases hv with (⟨n, rfl⟩ | ⟨s, hs⟩) | hrow
  · rfl
  · cases v with
    | map es => nomatch hs
    | _ => rfl
  · obtain ⟨xs, rfl⟩ := hrow.exists_list
    rfl

theorem predicatePart_bare (hk : junction? k = none) (hv : v.fields? = none) :
    predicatePart schema registry m k v = scalarPart m k v := by
  cases v with
  | map es => nomatch hv
  | list xs | tuple xs => rw [predicatePart, hk]
  | _ =>
    rw [predicatePart, hk]
    all_goals rintro _ ⟨⟩

theorem predicatePart_bare_decides (hk : junction? k = none) (hv : IsScalar v ∨ IsRow k v) :
    Decides (predicatePart schema registry m k v) (Fault schema registry m k v)
      (Conjunct.Has (Clause.Within schema m)) := by
  have hfields := fields?_of_bare hv
  rw [predicatePart_bare hk hfields, scalarPart]
  cases hr : k.name?.bind m.relation? with
  | some r =>
    refine .of_error rfl (.relation hk hr fun inner h => ?_)
    rw [h] at hfields
    nomatch hfields
  | none =>
    rw [if_neg (by simp), Model.term]
    cases hterm : k.name?.bind m.term? with
    | none => exact .of_error rfl (.unknown hk hr hterm)
    | some t =>
      obtain ⟨c, hc⟩ := NativeOperator.exists_comparison (.inl rfl) false t v
      obtain ⟨name, -, hname⟩ := Option.bind_eq_some_iff.mp hterm
      refine .of_ok (a := .clause c) (bind_eq_ok.mpr ⟨t, rfl, bind_eq_ok.mpr ⟨c, hc, rfl⟩⟩)
        (NativeOperator.comparison_within ⟨name, hname⟩ hc) fun f => ?_
      exact not_fault_bare hk hr hterm hfields

theorem predicatePart_map_decides (hregistry : registry.Lawful)
    (hschema : ∀ r ∈ m.relations, ∃ target, schema.model? r.target = some target)
    (hk : junction? k = none) (hcondition : isNativeCondition inner = true → PlainCondition registry inner)
    (hnested : isNativeCondition inner = false → ∀ target ∈ schema,
      Decides (predicateParts schema registry target inner)
        (fun f => ∃ e ∈ inner, Fault schema registry target e.1 e.2 f)
        fun parts => ∀ p ∈ parts, p.Has (Clause.Within schema target)) :
    Decides (predicatePart schema registry m k (.map inner)) (Fault schema registry m k (.map inner))
      (Conjunct.Has (Clause.Within schema m)) := by
  cases hr : k.name?.bind m.relation? with
  | some r =>
    obtain ⟨name, -, hname⟩ := Option.bind_eq_some_iff.mp hr
    obtain ⟨target, htarget⟩ := hschema r (Model.mem_of_relation? hname).1
    rw [predicatePart_relation hk hr htarget]
    cases hinner : isNativeCondition inner with
    | true => exact .of_error rfl (.relation hk hr fun es h => Value.map.inj h ▸ hinner)
    | false =>
      rw [if_neg Bool.false_ne_true]
      refine ((hnested hinner target (Schema.mem_of_model? htarget)).map fun parts hparts => ?_).congr
        fun f => (fault_related_iff hk hr htarget hinner).symm
      exact .related hname htarget ((Clause.partwise_within schema target).conjunction hparts)
  | none =>
    cases hterm : k.name?.bind m.term? with
    | none =>
      refine .of_error ?_ (.unknown hk hr hterm)
      rw [predicatePart, hk, hr, Model.term, hterm]
      rfl
    | some t =>
      obtain ⟨name, -, hname⟩ := Option.bind_eq_some_iff.mp hterm
      rw [predicatePart_term hk hr hterm]
      cases hinner : isNativeCondition inner with
      | true =>
        rw [if_pos rfl]
        have hclause : Decides (compileCondition registry m t inner)
            (fun f => ∃ e ∈ inner, Unregistered registry m e.1 e.2 f) (Clause.Within schema m) :=
          (conditionParts_decides hregistry ⟨name, hname⟩ (hcondition hinner) _).map
            fun parts hparts => (Clause.partwise_within schema m).conjunction hparts
        refine (hclause.map fun c hc => ?_).congr fun f => (fault_condition_iff hk hr hterm hinner).symm
        exact hc
      | false => exact .of_error rfl (.term hk hr hterm hinner)

/-- A plain predicate has parts about its model unless an entry is at fault, and then fails for a fault. -/
theorem predicateParts_decides (hregistry : registry.Lawful)
    (hschema : ∀ m ∈ schema, ∀ r ∈ m.relations, ∃ target, schema.model? r.target = some target)
    (hes : PlainPredicate registry es) (hm : m ∈ schema) :
    Decides (predicateParts schema registry m es)
      (fun f => ∃ e ∈ es, Fault schema registry m e.1 e.2 f)
      (fun parts => ∀ p ∈ parts, p.Has (Clause.Within schema m)) := by
  induction hes generalizing m with
  | nil => exact .of_ok rfl (fun p hp => nomatch hp) fun f ⟨e, he, _⟩ => nomatch he
  | @junction k j inner rest hk _ _ ihinner ihrest =>
    refine predicateParts_cons_decides ?_ (ihrest hm)
    rw [predicatePart, hk]
    refine ((ihinner hm).map fun parts hparts => ?_).congr fun f => (fault_junction_iff hk).symm
    refine (Clause.partwise_within schema m).joined (List.forall_mem_singleton.mpr ?_)
    exact (Clause.partwise_within schema m).conjunction hparts
  | @junctions k j ps rest hk _ _ ihps ihrest =>
    refine predicateParts_cons_decides ?_ (ihrest hm)
    rw [predicatePart, hk]
    refine ((predicateAll_decides fun inner hinner => ihps inner hinner hm).map fun cs hcs => ?_).congr
      fun f => (fault_junctions_iff hk).symm
    exact (Clause.partwise_within schema m).joined hcs
  | bare hk hv _ ih =>
    exact predicateParts_cons_decides (predicatePart_bare_decides hk hv) (ih hm)
  | condition hk hnative hinner _ ih =>
    refine predicateParts_cons_decides ?_ (ih hm)
    exact predicatePart_map_decides hregistry (hschema _ hm) hk (fun _ => hinner)
      fun h => absurd (h.symm.trans hnative) Bool.false_ne_true
  | nested hk hnative _ _ ihinner ihrest =>
    refine predicateParts_cons_decides ?_ (ihrest hm)
    exact predicatePart_map_decides hregistry (hschema _ hm) hk
      (fun h => absurd (hnative.symm.trans h) Bool.false_ne_true) fun _ target htarget => ihinner htarget

/-- **Exactly the faulty predicates are refused.** In a schema whose relations lead to models, with a
registry of standard operators and others that make clauses of their terms, a plain predicate is refused as
unsupported if and only if one of its entries is at fault, and then for a fault that it has. Otherwise it
has a clause, and a clause is about members of the models reached and about nothing else. -/
theorem compile_refused_iff (hregistry : registry.Lawful)
    (hschema : ∀ m ∈ schema, ∀ r ∈ m.relations, ∃ target, schema.model? r.target = some target)
    (hm : m ∈ schema) (hes : PlainPredicate registry es) :
    ((∃ bad name, compile schema registry m (.map es) = .error (.unsupportedPredicate bad name)) ↔
      ∃ f, ∃ e ∈ es, Fault schema registry m e.1 e.2 f) ∧
    (∀ f, compile schema registry m (.map es) = .error f →
      ∃ e ∈ es, Fault schema registry m e.1 e.2 f) ∧
    ((∀ f, ∀ e ∈ es, ¬ Fault schema registry m e.1 e.2 f) →
      ∃ clause, compile schema registry m (.map es) = .ok clause) ∧
    ∀ clause, compile schema registry m (.map es) = .ok clause → clause.Within schema m := by
  have hdecides : Decides (compile schema registry m (.map es))
      (fun f => ∃ e ∈ es, Fault schema registry m e.1 e.2 f) (Clause.Within schema m) :=
    (predicateParts_decides hregistry hschema hes hm).map fun parts hparts =>
      (Clause.partwise_within schema m).conjunction hparts
  refine ⟨⟨?_, ?_⟩, fun f hf => hdecides.fault_of_error hf, fun hnone => ?_, fun clause hclause => ?_⟩
  · rintro ⟨bad, name, h⟩
    exact ⟨_, hdecides.fault_of_error h⟩
  · intro hfault
    obtain ⟨f, hf⟩ := hdecides.error_iff.mpr hfault
    obtain ⟨e, -, he⟩ := hdecides.fault_of_error hf
    obtain ⟨m', bad, rfl⟩ := he.exists_key
    exact ⟨bad, m'.name, hf⟩
  · cases hcompile : compile schema registry m (.map es) with
    | ok clause => exact ⟨clause, rfl⟩
    | error f =>
      obtain ⟨e, he, hfault⟩ := hdecides.fault_of_error hcompile
      exact absurd hfault (hnone f e he)
  · rw [hclause] at hdecides
    exact hdecides.1

/-- In a team with a member whose status is not near another: there is no such test. -/
def astray : Fields :=
  [(.text "team", .map [(.text "users", .map [(.text "NOT", .list [.map
    [(.text "status", .map [(.text "not", .map [(.text "near", .int 1)])])]])])])]

theorem plain_astray : PlainPredicate .standard astray := by
  have hoperand : IsOperand .standard (.text "near") (.int 1) :=
    ⟨.inl (.inl ⟨1, rfl⟩), fun _ _ => .inl (by decide : ShortInt 1)⟩
  have hcondition : PlainCondition .standard [(.text "not", .map [(.text "near", .int 1)])] :=
    .negated rfl rfl (.operand rfl (fun h => nomatch h) hoperand .nil) .nil
  have hstatus : PlainPredicate .standard
      [(.text "status", .map [(.text "not", .map [(.text "near", .int 1)])])] :=
    .condition rfl rfl hcondition .nil
  have hnone := PlainPredicate.junctions (show junction? (.text "NOT") = some .none from rfl)
    (List.forall_mem_singleton.mpr hstatus) .nil
  exact .nested rfl rfl (.nested rfl rfl hnone .nil) .nil

/-- The test is refused below two relations, a junction and a negated condition. -/
theorem compile_refused_astray :
    Registry.standard.Lawful ∧ Sample.user ∈ Sample.schema ∧ PlainPredicate .standard astray ∧
      ∃ bad name, compile Sample.schema .standard Sample.user (.map astray) =
        .error (.unsupportedPredicate bad name) := by
  have hsome : ∀ m ∈ Sample.schema, ∀ r ∈ m.relations,
      (Sample.schema.model? r.target).isSome = true := by decide
  have hschema : ∀ m ∈ Sample.schema, ∀ r ∈ m.relations,
      ∃ target, Sample.schema.model? r.target = some target :=
    fun m hm r hr => Option.isSome_iff_exists.mp (hsome m hm r hr)
  have huser : Sample.user ∈ Sample.schema := by decide
  have hunregistered : Unregistered .standard Sample.user (.text "near") (.int 1)
      (Sample.user.unsupported (.text "near")) := .key rfl (fun h => nomatch h) fun ⟨op, h⟩ => nomatch h
  refine ⟨Registry.lawful_standard, huser, plain_astray, ?_⟩
  refine (compile_refused_iff Registry.lawful_standard hschema huser plain_astray).1.mpr ?_
  refine ⟨_, _, List.mem_cons_self, .related rfl rfl rfl rfl List.mem_cons_self
    (.related rfl rfl rfl rfl List.mem_cons_self (.junctions rfl List.mem_cons_self List.mem_cons_self
      (.condition rfl rfl rfl rfl List.mem_cons_self
        (.negated rfl List.mem_cons_self hunregistered))))⟩

/-! ## A search for a long integer -/

def nameHolding (v : Value) : Fields := [(.text "name", .map [(.text NativeKey.contains.name, v)])]

theorem not_fault_nameHolding (v : Value) :
    ∀ f, ∀ e ∈ nameHolding v, ¬ Fault Sample.schema .standard Sample.user e.1 e.2 f := by
  intro f e he h
  obtain rfl := List.mem_singleton.mp he
  obtain ⟨e, he, h⟩ := (fault_condition_iff rfl rfl rfl rfl).mp h
  obtain rfl := List.mem_singleton.mp he
  have hnot : isNotKey (.text NativeKey.contains.name) = false := rfl
  exact ((unregistered_operand_iff rfl fun h => nomatch hnot.symm.trans h).mp h).1 ⟨_, rfl⟩

theorem compile_long_search {n : Int} (h : ¬ ShortInt n) :
    compile Sample.schema .standard Sample.user (.map (nameHolding (.int n))) = .error .longInteger := by
  have hwrite : Value.writeInteger n = .error .longInteger := if_pos (Nat.lt_of_not_le h)
  have hsearch : ∀ t insensitive,
      NativeOperator.standardApply .contains t (.int n) insensitive = .error .longInteger := by
    intro t insensitive
    show Value.writeInteger n >>= _ = _
    rw [hwrite]
    rfl
  have hname : compileCondition .standard Sample.user (.column (Sample.textColumn "users" "name"))
      [(.text NativeKey.contains.name, .int n)] = .error .longInteger := by
    rw [compileCondition, conditionParts, if_neg (by decide), conditionPart_of_operand rfl,
      applyOperator_standard rfl (by decide), hsearch]
    rfl
  have hnative : isNativeCondition [(.text NativeKey.contains.name, .int n)] = true := rfl
  rw [compile, predicateClause, nameHolding, predicateParts, predicatePart_term rfl rfl rfl,
    if_pos hnative, hname]
  rfl

/-- **The failure.** An integer is an operand and the predicate is not at fault, but a search for one with
more digits than a text may have is not refused as unsupported and has no clause either. -/
theorem power_search_fails :
    (∀ f, ∀ e ∈ nameHolding (.int (10 ^ digitLimit : Nat)),
      ¬ Fault Sample.schema .standard Sample.user e.1 e.2 f) ∧
    compile Sample.schema .standard Sample.user (.map (nameHolding (.int (10 ^ digitLimit : Nat)))) =
      .error .longInteger := by
  refine ⟨not_fault_nameHolding _, compile_long_search fun hshort => ?_⟩
  rw [ShortInt, Int.natAbs_natCast] at hshort
  have hlimit : 0 < digitLimit := by decide
  exact Nat.lt_irrefl _ ((Nat.length_repr_le_iff hlimit).mp hshort)

end Sql
end Listing
