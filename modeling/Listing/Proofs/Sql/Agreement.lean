import Listing.Proofs.Sql.Condition
import Listing.Proofs.Sql.Conjunction
import Listing.Proofs.Sql.Graph
import Listing.Proofs.Value.Depth

/-!
# Predicates that compare columns

A predicate of comparing conditions on columns, joined and carried over relations. Its clause exists
unless some relation is asked for the empty predicate, and it answers on a row as the predicate does on
the object of the row, as long as no negated comparison reads a null.
-/

namespace Listing.Sql

open Outcome Predicate

/-! ## The predicates, what they read, and where they are empty -/

/-- A predicate on a model of comparing conditions. -/
inductive ComparingPredicate (schema : Schema) : Model → Fields → Prop
  | nil {m : Model} : ComparingPredicate schema m []
  | junction {m : Model} {k : Key} {j : Junction} {es rest : Fields} :
      junction? k = some j → ComparingPredicate schema m es → ComparingPredicate schema m rest →
      ComparingPredicate schema m ((k, .map es) :: rest)
  | junctions {m : Model} {k : Key} {j : Junction} {ps : List Fields} {rest : Fields} :
      junction? k = some j → (∀ es ∈ ps, ComparingPredicate schema m es) →
      ComparingPredicate schema m rest →
      ComparingPredicate schema m ((k, .list (ps.map .map)) :: rest)
  | relation {m target : Model} {k : Key} {r : Relation} {es rest : Fields} :
      junction? k = none → k.name?.bind m.relation? = some r →
      schema.model? r.target = some target → ComparingPredicate schema target es →
      ComparingPredicate schema m rest → ComparingPredicate schema m ((k, .map es) :: rest)
  | column {m : Model} {k : Key} {c : Column} {es rest : Fields} :
      junction? k = none → k.name?.bind m.column? = some c → ComparingCondition c.type es →
      ComparingPredicate schema m rest → ComparingPredicate schema m ((k, .map es) :: rest)

/-- The tests that a predicate makes when it is asked of a row. What is asked of related rows has an
answer for each of them, so below a relation only what stands there negates a test. -/
inductive Reads (schema : Schema) (db : Database) : Model → Row → Bool → Fields → Reading → Prop
  | junction {m : Model} {row : Row} {negated : Bool} {fs es : Fields} {k : Key} {j : Junction}
      {x : Reading} : (k, .map es) ∈ fs → junction? k = some j →
      Reads schema db m row (negated || decide (j = .none)) es x → Reads schema db m row negated fs x
  | junctions {m : Model} {row : Row} {negated : Bool} {fs es : Fields} {ps : List Value} {k : Key}
      {j : Junction} {x : Reading} : (k, .list ps) ∈ fs → junction? k = some j → .map es ∈ ps →
      Reads schema db m row (negated || decide (j = .none)) es x → Reads schema db m row negated fs x
  | relation {m target : Model} {row other : Row} {negated : Bool} {fs es : Fields} {k : Key}
      {r : Relation} {x : Reading} : (k, .map es) ∈ fs → junction? k = none →
      k.name?.bind m.relation? = some r → schema.model? r.target = some target →
      other ∈ r.related db row → Reads schema db target other false es x →
      Reads schema db m row negated fs x
  | column {m : Model} {row : Row} {negated : Bool} {fs es : Fields} {k : Key} {c : Column}
      {x : Reading} : (k, .map es) ∈ fs → junction? k = none → k.name?.bind m.column? = some c →
      x ∈ conditionReadings (row c.stored) negated es → Reads schema db m row negated fs x

/-- Whether some relation is asked for the empty predicate. -/
inductive AsksNothing (schema : Schema) : Model → Fields → Prop
  | here {m : Model} {fs : Fields} {k : Key} {r : Relation} : (k, .map []) ∈ fs → junction? k = none →
      k.name?.bind m.relation? = some r → AsksNothing schema m fs
  | junction {m : Model} {fs es : Fields} {k : Key} {j : Junction} : (k, .map es) ∈ fs →
      junction? k = some j → AsksNothing schema m es → AsksNothing schema m fs
  | junctions {m : Model} {fs es : Fields} {ps : List Value} {k : Key} {j : Junction} :
      (k, .list ps) ∈ fs → junction? k = some j → .map es ∈ ps → AsksNothing schema m es →
      AsksNothing schema m fs
  | relation {m target : Model} {fs es : Fields} {k : Key} {r : Relation} : (k, .map es) ∈ fs →
      junction? k = none → k.name?.bind m.relation? = some r → schema.model? r.target = some target →
      AsksNothing schema target es → AsksNothing schema m fs

variable {schema : Schema} {db : Database} {m target : Model} {row : Row} {negated : Bool}
  {k : Key} {v : Value} {j : Junction} {es rest : Fields}

theorem Reads.mono {fs gs : Fields} {x : Reading} (hsub : fs ⊆ gs)
    (h : Reads schema db m row negated fs x) : Reads schema db m row negated gs x := by
  cases h with
  | junction hmem hk h => exact .junction (hsub hmem) hk h
  | junctions hmem hk hes h => exact .junctions (hsub hmem) hk hes h
  | relation hmem hk hr htarget hother h => exact .relation (hsub hmem) hk hr htarget hother h
  | column hmem hk hc h => exact .column (hsub hmem) hk hc h

/-! What reads a test, inverted for each kind of entry. -/

theorem Reads.of_cons {e : Key × Value} {x : Reading}
    (h : Reads schema db m row negated (e :: rest) x) :
    Reads schema db m row negated [e] x ∨ Reads schema db m row negated rest x := by
  have hsplit : ∀ {f : Key × Value}, f ∈ e :: rest → f ∈ [e] ∨ f ∈ rest := fun hf =>
    (List.mem_cons.mp hf).imp_left List.mem_singleton.mpr
  cases h with
  | junction hmem hk h =>
    exact (hsplit hmem).imp (fun hmem => .junction hmem hk h) fun hmem => .junction hmem hk h
  | junctions hmem hk hes h =>
    exact (hsplit hmem).imp (fun hmem => .junctions hmem hk hes h) fun hmem =>
      .junctions hmem hk hes h
  | relation hmem hk hr htarget hother h =>
    exact (hsplit hmem).imp (fun hmem => .relation hmem hk hr htarget hother h) fun hmem =>
      .relation hmem hk hr htarget hother h
  | column hmem hk hc h =>
    exact (hsplit hmem).imp (fun hmem => .column hmem hk hc h) fun hmem => .column hmem hk hc h

theorem Reads.of_junctions {ps : List Value} {x : Reading} (hk : junction? k = some j)
    (h : Reads schema db m row negated [(k, .list ps)] x) :
    ∃ es, .map es ∈ ps ∧ Reads schema db m row (negated || decide (j = .none)) es x := by
  cases h with
  | junctions hmem hk' hes h =>
    obtain ⟨rfl, hlist⟩ := Prod.mk.inj (List.mem_singleton.mp hmem)
    obtain rfl := Value.list.inj hlist
    obtain rfl := Option.some.inj (hk'.symm.trans hk)
    exact ⟨_, hes, h⟩
  | junction hmem | relation hmem | column hmem =>
    nomatch (Prod.mk.inj (List.mem_singleton.mp hmem)).2

theorem Reads.of_relation {r : Relation} {x : Reading} (hk : junction? k = none)
    (hr : k.name?.bind m.relation? = some r) (hc : k.name?.bind m.column? = none)
    (htarget : schema.model? r.target = some target)
    (h : Reads schema db m row negated [(k, .map es)] x) :
    ∃ other ∈ r.related db row, Reads schema db target other false es x := by
  cases h with
  | junction hmem hk' =>
    obtain ⟨rfl, -⟩ := Prod.mk.inj (List.mem_singleton.mp hmem)
    nomatch hk.symm.trans hk'
  | junctions hmem => nomatch (Prod.mk.inj (List.mem_singleton.mp hmem)).2
  | relation hmem _ hr' htarget' hother h =>
    obtain ⟨rfl, hmap⟩ := Prod.mk.inj (List.mem_singleton.mp hmem)
    obtain rfl := Value.map.inj hmap
    obtain rfl := Option.some.inj (hr'.symm.trans hr)
    obtain rfl := Option.some.inj (htarget'.symm.trans htarget)
    exact ⟨_, hother, h⟩
  | column hmem _ hc' =>
    obtain ⟨rfl, -⟩ := Prod.mk.inj (List.mem_singleton.mp hmem)
    nomatch hc.symm.trans hc'

theorem Reads.of_column {c : Column} {x : Reading} (hk : junction? k = none)
    (hr : k.name?.bind m.relation? = none) (hc : k.name?.bind m.column? = some c)
    (h : Reads schema db m row negated [(k, .map es)] x) :
    x ∈ conditionReadings (row c.stored) negated es := by
  cases h with
  | junction hmem hk' =>
    obtain ⟨rfl, -⟩ := Prod.mk.inj (List.mem_singleton.mp hmem)
    nomatch hk.symm.trans hk'
  | junctions hmem => nomatch (Prod.mk.inj (List.mem_singleton.mp hmem)).2
  | relation hmem _ hr' =>
    obtain ⟨rfl, -⟩ := Prod.mk.inj (List.mem_singleton.mp hmem)
    nomatch hr.symm.trans hr'
  | column hmem _ hc' h =>
    obtain ⟨rfl, hmap⟩ := Prod.mk.inj (List.mem_singleton.mp hmem)
    obtain rfl := Value.map.inj hmap
    obtain rfl := Option.some.inj (hc'.symm.trans hc)
    exact h

theorem AsksNothing.mono {fs gs : Fields} (hsub : fs ⊆ gs) (h : AsksNothing schema m fs) :
    AsksNothing schema m gs := by
  cases h with
  | here hmem hk hr => exact .here (hsub hmem) hk hr
  | junction hmem hk h => exact .junction (hsub hmem) hk h
  | junctions hmem hk hes h => exact .junctions (hsub hmem) hk hes h
  | relation hmem hk hr htarget h => exact .relation (hsub hmem) hk hr htarget h

/-! ## Keys -/

theorem name?_of_junction? (hk : junction? k = some j) : k.name? = some j.key := by
  have hsame := List.find?_some hk
  rw [Key.same_name] at hsame
  exact beq_iff_eq.mp hsame

theorem isNativeKey_of_junction? (hk : junction? k = some j) : isNativeKey k = false := by
  rw [isNativeKey, nativeKey?, name?_of_junction? hk, Option.bind_some]
  cases j <;> rfl

theorem isNativeKey_of_name {name : String} (hk : k.name? = some name)
    (hname : NativeKey.ofName? name = none) : isNativeKey k = false := by
  rw [isNativeKey, nativeKey?, hk, Option.bind_some, hname]
  rfl

theorem ComparingPredicate.isNativeCondition (hschema : schema.Sound) (hm : m ∈ schema)
    (h : ComparingPredicate schema m es) (hne : es ≠ []) : isNativeCondition es = false := by
  have hhead : ∀ {k : Key} {v : Value} {rest : Fields}, isNativeKey k = false →
      Predicate.isNativeCondition ((k, v) :: rest) = false := by
    intro k v rest hk
    rw [Predicate.isNativeCondition, List.all_cons]
    dsimp only
    rw [hk, Bool.false_and]
  cases h with
  | nil => exact absurd rfl hne
  | junction hk => exact hhead (isNativeKey_of_junction? hk)
  | junctions hk => exact hhead (isNativeKey_of_junction? hk)
  | relation _ hr =>
    obtain ⟨name, hname, hr⟩ := Option.bind_eq_some_iff.mp hr
    obtain ⟨hmem, rfl⟩ := Model.mem_of_relation? hr
    exact hhead (isNativeKey_of_name hname (hschema.relation m hm _ hmem))
  | column _ hc =>
    obtain ⟨name, hname, hc⟩ := Option.bind_eq_some_iff.mp hc
    obtain ⟨hmem, rfl⟩ := Model.mem_of_column? hc
    exact hhead (isNativeKey_of_name hname (hschema.column m hm _ hmem))

/-! ## Junctions -/

/-- The answer of a junction to the answers of what it joins. -/
def answerOf (j : Junction) (bs : List Bool) : Bool :=
  match j with
  | .all => bs.all id
  | .any => bs.any id
  | .none => !bs.any id

theorem joined_answers {cs : List Clause} {bs : List Bool}
    (h : List.Forall₂ (fun c b => (Clause.truthOf db row c).Answers (negated || decide (j = .none)) b)
      cs bs) :
    ((joined j cs).truthOf db row).Answers negated (answerOf j bs) := by
  have hanswers : List.Forall₂ (Truth.Answers · (negated || decide (j = .none)))
      (cs.map (Clause.truthOf db row)) bs := List.forall₂_map_left_iff.mpr h
  cases j with
  | all =>
    rw [decide_eq_false (by decide), Bool.or_false] at hanswers
    rw [joined, Conjunct.truthOf, Clause.truthOf_conjunction, List.map_map]
    exact Truth.Answers.all hanswers
  | any =>
    rw [decide_eq_false (by decide), Bool.or_false] at hanswers
    rw [joined, Conjunct.truthOf, Clause.truthOf_disjunction]
    exact Truth.Answers.any hanswers
  | none =>
    rw [decide_eq_true rfl, Bool.or_true] at hanswers
    rw [joined, Clause.truthOf_negate, Clause.truthOf_disjunction]
    exact (Truth.Answers.any hanswers).not

theorem storable_joined {cs : List Clause} (h : ∀ c ∈ cs, c.Storable) : (joined j cs).Storable :=
  Clause.partwise_storable.joined h

theorem holds_cons_of {record : Value} {a b : Bool} (hentry : entryHolds record k v = .ok a)
    (hrest : holds record rest = .ok b) : holds record ((k, v) :: rest) = .ok (a && b) := by
  rw [holds, hentry]
  cases a with
  | false => rfl
  | true => exact hrest

theorem entryHolds_junction {record : Value} {b : Bool} (hk : junction? k = some j)
    (h : holds record es = .ok b) : entryHolds record k (.map es) = .ok (answerOf j [b]) := by
  rw [entryHolds, hk, h]
  cases j <;> cases b <;> rfl

theorem allHold_of {record : Value} {ps : List Fields} {bs : List Bool}
    (h : List.Forall₂ (fun es b => holds record es = .ok b) ps bs) :
    allHold record (ps.map .map) = .ok (bs.all id) := by
  induction h with
  | nil => rfl
  | @cons es b ps bs hes _ ih =>
    rw [List.map_cons, allHold, valueHolds, hes]
    cases b with
    | false => rfl
    | true => exact ih

theorem anyHolds_of {record : Value} {ps : List Fields} {bs : List Bool}
    (h : List.Forall₂ (fun es b => holds record es = .ok b) ps bs) :
    anyHolds record (ps.map .map) = .ok (bs.any id) := by
  induction h with
  | nil => rfl
  | @cons es b ps bs hes _ ih =>
    rw [List.map_cons, anyHolds, valueHolds, hes]
    cases b with
    | false => exact ih
    | true => rfl

theorem entryHolds_junctions {record : Value} {ps : List Fields} {bs : List Bool}
    (hk : junction? k = some j) (h : List.Forall₂ (fun es b => holds record es = .ok b) ps bs) :
    entryHolds record k (.list (ps.map .map)) = .ok (answerOf j bs) := by
  rw [entryHolds, hk]
  cases j with
  | all => exact allHold_of h
  | any => exact anyHolds_of h
  | none =>
    dsimp only
    rw [anyHolds_of h]
    rfl

/-! ## Clauses that ask what predicates ask -/

section

variable (schema : Schema) (db : Database) (identity : Model → Row → Nat)

/-- Whether the parts of a conjunction are those of a predicate on a model, can be bound, and ask of each
row what the predicate asks of its object. -/
structure Translates (m : Model) (es : Fields) (parts : List Conjunct) : Prop where
  compiled : predicateParts schema .standard m es = .ok parts
  storable : ∀ p ∈ parts, p.Storable
  answers : ∀ n, ∀ row ∈ db m.table, ∀ negated, Value.depthEntries es ≤ n →
    (∀ x, Reads schema db m row negated es x → x.Settled) →
    ∃ b, holds (graph schema db identity n m row) es = .ok b ∧
      (Truth.all (parts.map (Conjunct.truthOf db row))).Answers negated b

/-- Whether a part of a conjunction is that of an entry of a predicate, in the same sense. -/
structure TranslatesEntry (m : Model) (k : Key) (v : Value) (part : Conjunct) : Prop where
  compiled : predicatePart schema .standard m k v = .ok part
  storable : part.Storable
  answers : ∀ n, ∀ row ∈ db m.table, ∀ negated, v.depth ≤ n →
    (∀ x, Reads schema db m row negated [(k, v)] x → x.Settled) →
    ∃ b, entryHolds (graph schema db identity n m row) k v = .ok b ∧
      (part.truthOf db row).Answers negated b

end

variable {identity : Model → Row → Nat} {parts : List Conjunct} {part : Conjunct}

theorem Translates.nil : Translates schema db identity m [] [] where
  compiled := rfl
  storable := fun _ hp => nomatch hp
  answers := fun _ _ _ _ _ _ => ⟨true, rfl, .of_eq rfl⟩

theorem Translates.cons (hentry : TranslatesEntry schema db identity m k v part)
    (hrest : Translates schema db identity m rest parts) :
    Translates schema db identity m ((k, v) :: rest) (part :: parts) where
  compiled := by
    rw [predicateParts, hentry.compiled, hrest.compiled]
    rfl
  storable := List.forall_mem_cons.mpr ⟨hentry.storable, hrest.storable⟩
  answers := by
    intro n row hrow negated hdepth hsettled
    rw [Value.depthEntries, Nat.max_le] at hdepth
    obtain ⟨a, ha, hanswer⟩ := hentry.answers n row hrow negated hdepth.1 fun x hx =>
      hsettled x (hx.mono (List.cons_subset_cons _ (List.nil_subset _)))
    obtain ⟨b, hb, hanswers⟩ := hrest.answers n row hrow negated hdepth.2 fun x hx =>
      hsettled x (hx.mono (List.subset_cons_self _ _))
    exact ⟨a && b, holds_cons_of ha hb, hanswer.and hanswers⟩

theorem Translates.clause (h : Translates schema db identity m es parts) :
    (Clause.conjunction parts).Storable :=
  Clause.storable_conjunction h.storable

theorem Translates.junction (hk : junction? k = some j)
    (h : Translates schema db identity m es parts) :
    TranslatesEntry schema db identity m k (.map es) (joined j [Clause.conjunction parts]) where
  compiled := by
    rw [predicatePart, hk, h.compiled]
    rfl
  storable := storable_joined (List.forall_mem_singleton.mpr h.clause)
  answers := by
    intro n row hrow negated hdepth hsettled
    rw [Value.depth] at hdepth
    obtain ⟨b, hb, hanswers⟩ := h.answers n row hrow _ (Nat.le_of_succ_le hdepth) fun x hx =>
      hsettled x (.junction List.mem_cons_self hk hx)
    rw [← Clause.truthOf_conjunction] at hanswers
    exact ⟨_, entryHolds_junction hk hb, joined_answers (.cons hanswers .nil)⟩

theorem Translates.junctions {ps : List Fields} {pss : List (List Conjunct)} (hk : junction? k = some j)
    (h : List.Forall₂ (Translates schema db identity m) ps pss) :
    TranslatesEntry schema db identity m k (.list (ps.map .map))
      (joined j (pss.map Clause.conjunction)) where
  compiled := by
    have hclauses : List.Forall₂ (fun es c => compile schema .standard m (.map es) = .ok c) ps
        (pss.map Clause.conjunction) := by
      rw [List.forall₂_map_right_iff]
      refine h.imp fun es parts htranslates => ?_
      rw [compile, predicateClause, htranslates.compiled]
      rfl
    rw [predicatePart, hk, predicateAll_map schema .standard m hclauses]
    rfl
  storable := by
    refine storable_joined fun c hc => ?_
    obtain ⟨parts, hparts, rfl⟩ := List.mem_map.mp hc
    obtain ⟨es, -, htranslates⟩ := exists_source h hparts
    exact htranslates.clause
  answers := by
    intro n row hrow negated hdepth hsettled
    have hdepths : ∀ es ∈ ps, Value.depthEntries es ≤ n := by
      intro es hes
      rw [Value.depth] at hdepth
      have hes := Value.depthAll_le_iff.mp (Nat.le_of_succ_le hdepth) _ (List.mem_map_of_mem hes)
      rw [Value.depth] at hes
      exact Nat.le_of_succ_le hes
    have hreads : ∀ es ∈ ps, ∀ x, Reads schema db m row (negated || decide (j = .none)) es x →
        x.Settled := fun es hes x hx =>
      hsettled x (.junctions List.mem_cons_self hk (List.mem_map_of_mem hes) hx)
    obtain ⟨bs, hbs⟩ : ∃ bs, List.Forall₂ (fun es b =>
        holds (graph schema db identity n m row) es = .ok b) ps bs ∧
        List.Forall₂ (fun parts b => (Clause.truthOf db row (Clause.conjunction parts)).Answers
          (negated || decide (j = .none)) b) pss bs := by
      -- along the predicates and their conjunctions together
      clear hdepth hsettled
      induction h with
      | nil => exact ⟨[], .nil, .nil⟩
      | cons htranslates _ ih =>
        obtain ⟨hdepth, hdepths⟩ := List.forall_mem_cons.mp hdepths
        obtain ⟨hread, hreads⟩ := List.forall_mem_cons.mp hreads
        obtain ⟨b, hb, hanswers⟩ := htranslates.answers n row hrow _ hdepth hread
        obtain ⟨bs, hbs, hall⟩ := ih hdepths hreads
        rw [← Clause.truthOf_conjunction] at hanswers
        exact ⟨b :: bs, .cons hb hbs, .cons hanswers hall⟩
    refine ⟨_, entryHolds_junctions hk hbs.1, joined_answers ?_⟩
    exact List.forall₂_map_left_iff.mpr hbs.2

theorem Translates.relation (hschema : schema.Sound) (hdb : db.Sound schema) (hm : m ∈ schema)
    (hk : junction? k = none) {r : Relation} (hr : k.name?.bind m.relation? = some r)
    (htarget : schema.model? r.target = some target) (hes : isNativeCondition es = false)
    (h : Translates schema db identity target es parts) :
    TranslatesEntry schema db identity m k (.map es)
      (.clause (.related r (Clause.conjunction parts))) where
  compiled := by
    rw [predicatePart_relation hk hr htarget, hes, h.compiled]
    rfl
  storable := h.clause
  answers := by
    intro n row hrow negated hdepth hsettled
    obtain ⟨name, hname, hrelation⟩ := Option.bind_eq_some_iff.mp hr
    obtain ⟨hmem, rfl⟩ := Model.mem_of_relation? hrelation
    rw [Value.depth] at hdepth
    -- the objects of related rows are one level shallower, as what is asked of them is
    obtain ⟨n, rfl⟩ : ∃ n', n = n' + 1 := Nat.exists_eq_succ_of_ne_zero (by omega)
    have hholds : ∀ other ∈ r.related db row, holds (graph schema db identity n target other) es =
        .ok ((Clause.conjunction parts).selects db other) := by
      intro other hother
      have htable : other ∈ db target.table := by
        rw [← hschema.table m hm r hmem target htarget]
        exact List.mem_of_mem_filter hother
      obtain ⟨b, hb, hanswers⟩ := h.answers n other htable false (Nat.le_of_succ_le_succ hdepth)
        fun x hx => hsettled x (.relation List.mem_cons_self hk hr htarget hother hx)
      rw [hb, Clause.selects, Clause.truthOf_conjunction, hanswers.selects]
    have hget : (graph schema db identity (n + 1) m row).get k =
        .ok (linked r ((r.related db row).map (graph schema db identity n target))) :=
      get_graph_relation hname (hschema.distinct m hm r hmem) hrelation htarget n row
    exact ⟨_, entryHolds_linked hk hget (exists_object n target) (hdb.single m hm row hrow r hmem) hes
      hholds, .of_eq rfl⟩

theorem predicatePart_column (hschema : schema.Sound) (hm : m ∈ schema) (hk : junction? k = none)
    {c : Column} (hc : k.name?.bind m.column? = some c) (hes : isNativeCondition es = true) :
    predicatePart schema .standard m k (.map es) =
      (do return .clause (← compileCondition .standard m (.column c) es)) := by
  obtain ⟨name, hname, hcolumn⟩ := Option.bind_eq_some_iff.mp hc
  have hrelation : k.name?.bind m.relation? = none := by
    rw [hname, Option.bind_some]
    cases hr : m.relation? name with
    | none => rfl
    | some r =>
      obtain ⟨hmem, rfl⟩ := Model.mem_of_relation? hr
      rw [hschema.distinct m hm r hmem] at hcolumn
      nomatch hcolumn
  have hterm : k.name?.bind m.term? = some (.column c) := by
    rw [hname, Option.bind_some, Model.term?, hcolumn]
  rw [predicatePart_term hk hrelation hterm, if_pos hes]

theorem entryHolds_column (hk : junction? k = none) {c : Column}
    (hc : k.name?.bind m.column? = some c) (hes : isNativeCondition es = true) (n : Nat) (row : Row) :
    entryHolds (graph schema db identity n m row) k (.map es) =
      satisfies (row c.stored).toValue es := by
  obtain ⟨name, hname, hcolumn⟩ := Option.bind_eq_some_iff.mp hc
  rw [entryHolds, hk]
  dsimp only
  rw [get_graph_column hname hcolumn, hes]
  rfl

theorem exists_column (hschema : schema.Sound) (hdb : db.Sound schema) (hm : m ∈ schema)
    (hk : junction? k = none) {c : Column} (hc : k.name?.bind m.column? = some c)
    (hes : ComparingCondition c.type es) :
    ∃ part, TranslatesEntry schema db identity m k (.map es) part := by
  obtain ⟨parts, hparts, hstorable, hanswers⟩ := conditionParts_answers m hes
  obtain ⟨name, hname, hcolumn⟩ := Option.bind_eq_some_iff.mp hc
  obtain ⟨hmem, -⟩ := Model.mem_of_column? hcolumn
  refine ⟨.clause (Clause.conjunction parts), ?_, Clause.storable_conjunction hstorable, ?_⟩
  · rw [predicatePart_column hschema hm hk hc hes.isNativeCondition, compileCondition,
      hes.isInsensitive, hparts]
    rfl
  · intro n row hrow negated _ hsettled
    obtain ⟨b, hb, hanswers⟩ := hanswers db row negated (hdb.typed m hm row hrow c hmem) fun x hx =>
      hsettled x (.column List.mem_cons_self hk hc hx)
    refine ⟨b, ?_, ?_⟩
    · rw [entryHolds_column hk hc hes.isNativeCondition, satisfies, hes.isInsensitive, hb]
    · rwa [Conjunct.truthOf, Clause.truthOf_conjunction]

/-- A comparing predicate that asks no relation for the empty predicate has a conjunction that asks of
each row what the predicate asks of its object. -/
theorem exists_translates (hschema : schema.Sound) (hdb : db.Sound schema)
    (h : ComparingPredicate schema m es) (hm : m ∈ schema) (hasks : ¬ AsksNothing schema m es) :
    ∃ parts, Translates schema db identity m es parts := by
  induction h with
  | nil => exact ⟨[], .nil⟩
  | junction hk _ _ ihes ih =>
    obtain ⟨ps, hps⟩ := ihes hm fun h => hasks (.junction List.mem_cons_self hk h)
    obtain ⟨qs, hqs⟩ := ih hm fun h => hasks (h.mono (List.subset_cons_self _ _))
    exact ⟨_, .cons (hps.junction hk) hqs⟩
  | junctions hk _ _ ihes ih =>
    obtain ⟨pss, hpss⟩ := exists_forall₂ fun es hes => ihes es hes hm fun h =>
      hasks (.junctions List.mem_cons_self hk (List.mem_map_of_mem hes) h)
    obtain ⟨qs, hqs⟩ := ih hm fun h => hasks (h.mono (List.subset_cons_self _ _))
    exact ⟨_, .cons (Translates.junctions hk hpss) hqs⟩
  | @relation m target k r es rest hk hr htarget hes _ ihes ih =>
    have hne : es ≠ [] := by
      rintro rfl
      exact hasks (.here List.mem_cons_self hk hr)
    have hmtarget := Schema.mem_of_model? htarget
    obtain ⟨ps, hps⟩ := ihes hmtarget fun h => hasks (.relation List.mem_cons_self hk hr htarget h)
    obtain ⟨qs, hqs⟩ := ih hm fun h => hasks (h.mono (List.subset_cons_self _ _))
    have hnative := hes.isNativeCondition hschema hmtarget hne
    exact ⟨_, .cons (hps.relation hschema hdb hm hk hr htarget hnative) hqs⟩
  | column hk hc hes _ ih =>
    obtain ⟨part, hpart⟩ := exists_column hschema hdb hm hk hc hes
    obtain ⟨qs, hqs⟩ := ih hm fun h => hasks (h.mono (List.subset_cons_self _ _))
    exact ⟨_, .cons hpart hqs⟩

/-- A predicate that asks a relation for the empty predicate has no clause: there the empty mapping is
taken for a condition. -/
theorem AsksNothing.not_compiled (h : AsksNothing schema m es) (registry : Registry) :
    ¬ ∃ parts, predicateParts schema registry m es = .ok parts := by
  induction h with
  | here hmem hk hr =>
    intro hparts
    obtain ⟨part, hpart⟩ := predicateParts_ok_iff.mp hparts _ hmem
    rw [predicatePart, hk, hr] at hpart
    cases hpart
  | junction hmem hk _ ih =>
    intro hparts
    obtain ⟨part, hpart⟩ := predicateParts_ok_iff.mp hparts _ hmem
    rw [predicatePart, hk] at hpart
    obtain ⟨ps, hps, -⟩ := bind_eq_ok.mp hpart
    exact ih ⟨ps, hps⟩
  | junctions hmem hk hes _ ih =>
    intro hparts
    obtain ⟨part, hpart⟩ := predicateParts_ok_iff.mp hparts _ hmem
    rw [predicatePart, hk] at hpart
    obtain ⟨cs, hcs, -⟩ := bind_eq_ok.mp hpart
    obtain ⟨c, hc⟩ := predicateAll_ok_iff.mp ⟨cs, hcs⟩ _ hes
    obtain ⟨ps, hps, -⟩ := bind_eq_ok.mp hc
    exact ih ⟨ps, hps⟩
  | relation hmem hk hr htarget _ ih =>
    intro hparts
    obtain ⟨part, hpart⟩ := predicateParts_ok_iff.mp hparts _ hmem
    rw [predicatePart_relation hk hr htarget] at hpart
    split at hpart
    · cases hpart
    · obtain ⟨ps, hps, -⟩ := bind_eq_ok.mp hpart
      exact ih ⟨ps, hps⟩

end Listing.Sql
