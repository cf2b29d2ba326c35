import Listing.Sql.Truth
import Mathlib.Data.List.Forall2

/-!
# Joined clauses in three values

Conjunctions, disjunctions and negations of clauses have the truth of their parts, joined in the logic
of three values, however the parts are flattened, absorbed or settled. Where null leaves a question
open, its truth answers as a plain no does, as long as nothing negates it.
-/

namespace Listing.Sql

/-! ## Truth values -/

namespace Truth

def all (ts : List Truth) : Truth := ts.foldr and (some true)

def any (ts : List Truth) : Truth := ts.foldr or (some false)

@[simp] theorem all_nil : all [] = some true := rfl

@[simp] theorem all_cons (t : Truth) (ts : List Truth) : all (t :: ts) = t.and (all ts) := rfl

@[simp] theorem any_nil : any [] = some false := rfl

@[simp] theorem any_cons (t : Truth) (ts : List Truth) : any (t :: ts) = t.or (any ts) := rfl

@[simp] theorem true_and (t : Truth) : and (some true) t = t := by
  rcases t with _ | _ | _ <;> rfl

@[simp] theorem and_true (t : Truth) : t.and (some true) = t := by
  rcases t with _ | _ | _ <;> rfl

@[simp] theorem and_false (t : Truth) : t.and (some false) = some false := by
  rcases t with _ | _ | _ <;> rfl

theorem and_some (a b : Bool) : and (some a) (some b) = some (a && b) := by
  cases a <;> cases b <;> rfl

@[simp] theorem false_or (t : Truth) : or (some false) t = t := by
  rcases t with _ | _ | _ <;> rfl

@[simp] theorem or_false (t : Truth) : t.or (some false) = t := by
  rcases t with _ | _ | _ <;> rfl

theorem not_not (t : Truth) : t.not.not = t := by
  rcases t with _ | _ | _ <;> rfl

theorem and_assoc (a b c : Truth) : (a.and b).and c = a.and (b.and c) := by
  rcases a with _ | _ | _ <;> rcases b with _ | _ | _ <;> rcases c with _ | _ | _ <;> rfl

theorem or_assoc (a b c : Truth) : (a.or b).or c = a.or (b.or c) := by
  rcases a with _ | _ | _ <;> rcases b with _ | _ | _ <;> rcases c with _ | _ | _ <;> rfl

theorem all_append (ts us : List Truth) : all (ts ++ us) = (all ts).and (all us) := by
  induction ts with
  | nil => simp
  | cons t ts ih => rw [List.cons_append, all_cons, all_cons, ih, and_assoc]

theorem any_append (ts us : List Truth) : any (ts ++ us) = (any ts).or (any us) := by
  induction ts with
  | nil => simp
  | cons t ts ih => rw [List.cons_append, any_cons, any_cons, ih, or_assoc]

theorem and_eq_true {a b : Truth} : a.and b = some true ↔ a = some true ∧ b = some true := by
  rcases a with _ | _ | _ <;> rcases b with _ | _ | _ <;> simp [and]

theorem all_eq_true {ts : List Truth} : all ts = some true ↔ ∀ t ∈ ts, t = some true := by
  induction ts with
  | nil => simp
  | cons t ts ih => rw [all_cons, and_eq_true, ih, List.forall_mem_cons]

theorem all_of_false {ts : List Truth} (h : some false ∈ ts) : all ts = some false := by
  induction ts with
  | nil => simp at h
  | cons t ts ih =>
    rcases List.mem_cons.mp h with rfl | h
    · rfl
    · rw [all_cons, ih h, and_false]

theorem or_eq_true {a b : Truth} : a.or b = some true ↔ a = some true ∨ b = some true := by
  rcases a with _ | _ | _ <;> rcases b with _ | _ | _ <;> simp [or]

theorem and_eq_none {a b : Truth} (h : a.and b = none) : a = none ∨ b = none := by
  rcases a with _ | _ | _ <;> rcases b with _ | _ | _ <;> simp_all [and]

theorem or_eq_none {a b : Truth} (h : a.or b = none) : a = none ∨ b = none := by
  rcases a with _ | _ | _ <;> rcases b with _ | _ | _ <;> simp_all [or]

theorem or_eq_false {a b : Truth} : a.or b = some false ↔ a = some false ∧ b = some false := by
  rcases a with _ | _ | _ <;> rcases b with _ | _ | _ <;> simp [or]

theorem any_eq_true {ts : List Truth} : any ts = some true ↔ some true ∈ ts := by
  induction ts with
  | nil => simp
  | cons t ts ih => rw [any_cons, or_eq_true, ih, List.mem_cons, eq_comm]

theorem any_eq_false {ts : List Truth} : any ts = some false ↔ ∀ t ∈ ts, t = some false := by
  induction ts with
  | nil => simp
  | cons t ts ih => rw [any_cons, or_eq_false, ih, List.forall_mem_cons]

theorem not_eq_none {t : Truth} : t.not = none ↔ t = none := Option.map_eq_none_iff

theorem not_eq_true {t : Truth} : t.not = some true ↔ t = some false := by
  rcases t with _ | _ | _ <;> simp [not]

theorem eq_false_iff {t : Truth} : t = some false ↔ (t == some true) = false ∧ (t == none) = false := by
  rcases t with _ | _ | _ <;> simp

theorem any_eq_none {ts : List Truth} : any ts = none ↔ some true ∉ ts ∧ none ∈ ts := by
  constructor
  · intro hopen
    have htrue : some true ∉ ts := by
      rw [← any_eq_true, hopen]
      simp
    refine ⟨htrue, ?_⟩
    by_contra hnone
    have hfalse : any ts = some false := by
      rw [any_eq_false]
      intro t ht
      rcases t with _ | _ | _
      · exact absurd ht hnone
      · rfl
      · exact absurd ht htrue
    rw [hopen] at hfalse
    cases hfalse
  · rintro ⟨htrue, hnone⟩
    match hany : any ts with
    | none => rfl
    | some true => exact absurd (any_eq_true.mp hany) htrue
    | some false => cases any_eq_false.mp hany none hnone

/-- Whether a truth value answers yes or no. One that null leaves open answers no, but only where
nothing negates the answer. -/
def Answers (t : Truth) (negated b : Bool) : Prop :=
  t = some b ∨ negated = false ∧ t = none ∧ b = false

namespace Answers

variable {t u : Truth} {negated a b : Bool}

theorem of_eq (h : t = some b) : t.Answers negated b := .inl h

theorem eq_some (h : t.Answers true b) : t = some b :=
  h.resolve_right fun hopen => Bool.noConfusion hopen.1

theorem selects (h : t.Answers negated b) : (t == some true) = b := by
  rcases h with rfl | ⟨-, rfl, rfl⟩
  · cases b <;> rfl
  · rfl

theorem and (ht : t.Answers negated a) (hu : u.Answers negated b) :
    (t.and u).Answers negated (a && b) := by
  rcases ht with rfl | ⟨rfl, rfl, rfl⟩
  · rcases hu with rfl | ⟨rfl, rfl, rfl⟩
    · cases a <;> cases b <;> exact .inl rfl
    · cases a
      · exact .inl rfl
      · exact .inr ⟨rfl, rfl, rfl⟩
  · rcases hu with rfl | ⟨-, rfl, rfl⟩
    · cases b
      · exact .inl rfl
      · exact .inr ⟨rfl, rfl, rfl⟩
    · exact .inr ⟨rfl, rfl, rfl⟩

theorem or (ht : t.Answers negated a) (hu : u.Answers negated b) :
    (t.or u).Answers negated (a || b) := by
  rcases ht with rfl | ⟨rfl, rfl, rfl⟩
  · rcases hu with rfl | ⟨rfl, rfl, rfl⟩
    · cases a <;> cases b <;> exact .inl rfl
    · cases a
      · exact .inr ⟨rfl, rfl, rfl⟩
      · exact .inl rfl
  · rcases hu with rfl | ⟨-, rfl, rfl⟩
    · cases b
      · exact .inr ⟨rfl, rfl, rfl⟩
      · exact .inl rfl
    · exact .inr ⟨rfl, rfl, rfl⟩

theorem not (h : t.Answers true b) : t.not.Answers negated (!b) := by
  rw [h.eq_some]
  exact .of_eq rfl

theorem all {ts : List Truth} {bs : List Bool} (h : List.Forall₂ (Answers · negated) ts bs) :
    (Truth.all ts).Answers negated (bs.all id) := by
  induction h with
  | nil => exact .of_eq rfl
  | cons ht _ ih => exact ht.and ih

theorem any {ts : List Truth} {bs : List Bool} (h : List.Forall₂ (Answers · negated) ts bs) :
    (Truth.any ts).Answers negated (bs.any id) := by
  induction h with
  | nil => exact .of_eq rfl
  | cons ht _ ih => exact ht.or ih

end Answers
end Truth

/-! ## Clauses -/

def Conjunct.truthOf (db : Database) (row : Row) : Conjunct → Truth
  | .clause c => Clause.truthOf db row c
  | .settled b => some b

namespace Clause

variable (db : Database) (row : Row)

theorem allTruth_eq (cs : List Clause) : allTruth db row cs = Truth.all (cs.map (truthOf db row)) := by
  induction cs with
  | nil => rfl
  | cons c cs ih => rw [allTruth, ih, List.map_cons, Truth.all_cons]

theorem anyTruth_eq (cs : List Clause) : anyTruth db row cs = Truth.any (cs.map (truthOf db row)) := by
  induction cs with
  | nil => rfl
  | cons c cs ih => rw [anyTruth, ih, List.map_cons, Truth.any_cons]

theorem all_conjuncts (c : Clause) :
    Truth.all (c.conjuncts.map (truthOf db row)) = truthOf db row c := by
  cases c with
  | all cs => rw [conjuncts, truthOf, allTruth_eq]
  | _ => simp [conjuncts]

theorem any_disjuncts (c : Clause) :
    Truth.any (c.disjuncts.map (truthOf db row)) = truthOf db row c := by
  cases c with
  | any cs => rw [disjuncts, truthOf, anyTruth_eq]
  | _ => simp [disjuncts]

theorem truthOf_all_flatMap (cs : List Clause) :
    truthOf db row (all (cs.flatMap conjuncts)) = Truth.all (cs.map (truthOf db row)) := by
  rw [truthOf, allTruth_eq]
  induction cs with
  | nil => rfl
  | cons c cs ih =>
    rw [List.flatMap_cons, List.map_append, Truth.all_append, ih, all_conjuncts, List.map_cons,
      Truth.all_cons]

theorem truthOf_any_flatMap (cs : List Clause) :
    truthOf db row (any (cs.flatMap disjuncts)) = Truth.any (cs.map (truthOf db row)) := by
  rw [truthOf, anyTruth_eq]
  induction cs with
  | nil => rfl
  | cons c cs ih =>
    rw [List.flatMap_cons, List.map_append, Truth.any_append, ih, any_disjuncts, List.map_cons,
      Truth.any_cons]

/-- The clauses among the parts of a conjunction. -/
def clausesOf (parts : List Conjunct) : List Clause :=
  parts.filterMap fun
    | .clause c => some c
    | .settled _ => none

theorem mem_clausesOf {parts : List Conjunct} {c : Clause} :
    c ∈ clausesOf parts ↔ Conjunct.clause c ∈ parts := by
  constructor
  · intro h
    obtain ⟨p, hp, hpc⟩ := List.mem_filterMap.mp h
    cases p with
    | clause d => exact Option.some.inj hpc ▸ hp
    | settled b => nomatch hpc
  · intro h
    exact List.mem_filterMap.mpr ⟨_, h, rfl⟩

theorem conjunction_of_settled {parts : List Conjunct} (h : Conjunct.settled false ∈ parts) :
    conjunction parts = constant false := by
  unfold conjunction
  rw [if_pos]
  exact List.any_eq_true.mpr ⟨_, h, rfl⟩

theorem conjunction_of_open {parts : List Conjunct} (h : Conjunct.settled false ∉ parts) :
    conjunction parts =
      match clausesOf parts with
      | [] => constant true
      | [c] => c
      | cs => all (cs.flatMap conjuncts) := by
  unfold conjunction
  rw [if_neg]
  · rfl
  · intro hany
    obtain ⟨p, hp, hsettled⟩ := List.any_eq_true.mp hany
    split at hsettled
    · exact h hp
    · simp at hsettled

theorem all_clausesOf {parts : List Conjunct} (h : Conjunct.settled false ∉ parts) :
    Truth.all ((clausesOf parts).map (truthOf db row)) =
      Truth.all (parts.map (Conjunct.truthOf db row)) := by
  induction parts with
  | nil => rfl
  | cons p parts ih =>
    rw [List.mem_cons, not_or] at h
    rw [List.map_cons, Truth.all_cons, ← ih h.2]
    cases p with
    | clause c => rfl
    | settled b =>
      cases b with
      | false => exact absurd rfl h.1
      | true => exact (Truth.true_and _).symm

theorem truthOf_conjunction (parts : List Conjunct) :
    truthOf db row (conjunction parts) = Truth.all (parts.map (Conjunct.truthOf db row)) := by
  by_cases hsettled : Conjunct.settled false ∈ parts
  · rw [conjunction_of_settled hsettled, Truth.all_of_false (List.mem_map.mpr ⟨_, hsettled, rfl⟩)]
    rfl
  · rw [conjunction_of_open hsettled, ← all_clausesOf db row hsettled]
    match clausesOf parts with
    | [] => rfl
    | [c] => simp
    | c :: d :: cs => exact truthOf_all_flatMap db row (c :: d :: cs)

theorem truthOf_disjunction (cs : List Clause) :
    truthOf db row (disjunction cs) = Truth.any (cs.map (truthOf db row)) := by
  match cs with
  | [] => rfl
  | [c] => simp [disjunction]
  | c :: d :: cs => exact truthOf_any_flatMap db row (c :: d :: cs)

theorem compareCells_negate (sign : Sign) (a b : Cell) :
    compareCells sign.negate a b = (compareCells sign a b).not := by
  unfold compareCells
  cases a.compare? b with
  | none => rfl
  | some o => cases sign <;> cases o <;> rfl

theorem truthOf_negate (c : Clause) :
    c.negate.truthOf db row = (truthOf db row c).not := by
  cases c with
  | compare lowered t sign bound =>
    rw [negate, Conjunct.truthOf, truthOf, truthOf]
    split
    · exact compareCells_negate _ _ _
    · exact compareCells_negate _ _ _
  | truth t equal b =>
    rw [negate, Conjunct.truthOf, truthOf, truthOf]
    cases equal
    · exact compareCells_negate .ne _ _
    · exact compareCells_negate .eq _ _
  | null t isNull =>
    rw [negate, Conjunct.truthOf, truthOf, truthOf]
    cases isNull <;> cases (t.cell row).isNull <;> rfl
  | member t among bounds =>
    rw [negate, Conjunct.truthOf, truthOf, truthOf]
    cases among with
    | true => rfl
    | false => exact (Truth.not_not _).symm
  | not c =>
    cases c with
    | like lowered t place text => exact (Truth.not_not _).symm
    | _ => rfl
  | _ => rfl

theorem selects_conjunction (cs : List Clause) :
    selects db (conjunction (cs.map .clause)) row = cs.all fun c => selects db c row := by
  rw [Bool.eq_iff_iff, List.all_eq_true, selects, beq_iff_eq, truthOf_conjunction, Truth.all_eq_true]
  simp [Conjunct.truthOf, selects]

theorem selects_disjunction (cs : List Clause) :
    selects db (disjunction cs) row = cs.any fun c => selects db c row := by
  rw [Bool.eq_iff_iff, List.any_eq_true, selects, beq_iff_eq, truthOf_disjunction, Truth.any_eq_true]
  simp [selects]

end Clause
end Listing.Sql
