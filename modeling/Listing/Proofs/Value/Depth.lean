import Listing.Value.Depth
import Mathlib.Data.List.Basic
import Mathlib.Logic.Relation

/-!
# The worklist of the depth test

What the test with a worklist decides is whether the depth of a value passes the limit. It comes to that
answer in whatever order it takes the items of the list, since a step keeps what they reach and leaves
less of them.
-/

namespace Listing.Value

theorem depthEntries_eq (es : List (Key × Value)) : depthEntries es = depthAll (es.map (·.2)) := by
  induction es with
  | nil => rfl
  | cons e es ih =>
    obtain ⟨k, v⟩ := e
    rw [depthEntries, ih, List.map_cons, depthAll]

theorem depth_eq (v : Value) : depth v = depthAll v.parts + 1 := by
  cases v with
  | map es => rw [depth, depthEntries_eq, parts]
  | _ => rfl

theorem depthAll_le_iff {xs : List Value} {d : Nat} : depthAll xs ≤ d ↔ ∀ x ∈ xs, depth x ≤ d := by
  induction xs with
  | nil => simp [depthAll]
  | cons x xs ih => rw [depthAll, Nat.max_le, ih, List.forall_mem_cons]

theorem depthEntries_le_iff {es : List (Key × Value)} {d : Nat} :
    depthEntries es ≤ d ↔ ∀ e ∈ es, depth e.2 ≤ d := by
  rw [depthEntries_eq, depthAll_le_iff, List.forall_mem_map]

theorem lt_add_depthAll_iff {limit n : Nat} (h : n ≤ limit) (xs : List Value) :
    limit < n + depthAll xs ↔ ∃ x ∈ xs, limit < n + depth x := by
  induction xs with
  | nil => simp [depthAll, h]
  | cons x xs ih =>
    rw [depthAll, List.exists_mem_cons_iff, ← ih]
    omega

namespace Worklist

variable {limit : Nat} {work next last : List (Value × Nat)} {answer : Bool}

/-- Whether something on a worklist reaches below a limit, counted from where it stands. -/
def Reaches (limit : Nat) (work : List (Value × Nat)) : Prop :=
  ∃ item ∈ work, limit + 1 < item.2 + depth item.1

/-! ## One step -/

/-- One step of the test, whichever item it takes: an item within the limit gives way to its parts. -/
inductive Step (limit : Nat) (work next : List (Value × Nat)) : Prop
  | parts {v : Value} {n : Nat} {rest : List (Value × Nat)} (taken : work.Perm ((v, n) :: rest))
      (within : n ≤ limit) (pushed : next.Perm (v.parts.map (·, n + 1) ++ rest)) : Step limit work next

/-- What the test can answer at once: no where nothing is left, yes at an item below the limit. -/
inductive Answers (limit : Nat) (work : List (Value × Nat)) : Bool → Prop
  | exhausted (empty : work = []) : Answers limit work false
  | below {v : Value} {n : Nat} (taken : (v, n) ∈ work) (deep : limit < n) : Answers limit work true

theorem reaches_congr (h : work.Perm next) : Reaches limit work ↔ Reaches limit next :=
  exists_congr fun _ => and_congr_left fun _ => h.mem_iff

theorem reaches_parts_iff {n : Nat} (h : n ≤ limit) (v : Value) :
    Reaches limit (v.parts.map (·, n + 1)) ↔ limit + 1 < n + depth v := by
  have hparts : Reaches limit (v.parts.map (·, n + 1)) ↔ ∃ x ∈ v.parts, limit < n + depth x := by
    simp only [Reaches, List.mem_map, exists_exists_and_eq_and]
    refine exists_congr fun x => and_congr_right fun _ => ?_
    omega
  rw [hparts, ← lt_add_depthAll_iff h, depth_eq v]
  omega

/-- A step keeps whether something reaches below the limit. -/
theorem Step.reaches_iff (h : Step limit work next) : Reaches limit next ↔ Reaches limit work := by
  obtain @⟨v, n, rest, htaken, hwithin, hpushed⟩ := h
  have happend : ∀ xs ys, Reaches limit (xs ++ ys) ↔ Reaches limit xs ∨ Reaches limit ys := by
    intro xs ys
    simp only [Reaches, List.mem_append, or_and_right, exists_or]
  have hfirst : Reaches limit [(v, n)] ↔ limit + 1 < n + depth v := by simp [Reaches]
  rw [reaches_congr hpushed, reaches_congr htaken, happend, reaches_parts_iff hwithin, ← hfirst,
    ← happend, List.singleton_append]

theorem Answers.eq_true_iff (h : Answers limit work answer) :
    answer = true ↔ Reaches limit work := by
  cases h with
  | exhausted empty =>
    rw [empty]
    simp [Reaches]
  | @below v n taken deep =>
    refine iff_of_true rfl ⟨(v, n), taken, ?_⟩
    have hdepth := depth_eq v
    dsimp only
    omega

/-! ## Whole runs -/

/-- Whether the test, taking items in some order, comes to an answer for a worklist. -/
def Run (limit : Nat) (work : List (Value × Nat)) (answer : Bool) : Prop :=
  ∃ last, Relation.ReflTransGen (Step limit) work last ∧ Answers limit last answer

theorem Run.eq_true_iff (h : Run limit work answer) : answer = true ↔ Reaches limit work := by
  obtain ⟨last, hsteps, hanswer⟩ := h
  rw [hanswer.eq_true_iff]
  clear hanswer
  induction hsteps with
  | refl => exact Iff.rfl
  | tail _ hstep ih => exact hstep.reaches_iff.trans ih

theorem exists_answer_or_step (limit : Nat) (work : List (Value × Nat)) :
    (∃ answer, Answers limit work answer) ∨ ∃ next, Step limit work next := by
  cases work with
  | nil => exact .inl ⟨false, .exhausted rfl⟩
  | cons item work =>
    obtain ⟨v, n⟩ := item
    by_cases h : limit < n
    · exact .inl ⟨true, .below List.mem_cons_self h⟩
    · exact .inr ⟨_, .parts (.refl _) (Nat.le_of_not_lt h) (.refl _)⟩

theorem worklistWeight_perm (h : work.Perm next) : worklistWeight work = worklistWeight next := by
  unfold worklistWeight
  induction h with
  | nil => rfl
  | cons item _ ih => simp only [List.map_cons, weightAll, ih]
  | swap item item' work => simp only [List.map_cons, weightAll, Nat.add_left_comm]
  | trans _ _ ih ih' => exact ih.trans ih'

theorem Step.worklistWeight_lt (h : Step limit work next) :
    worklistWeight next < worklistWeight work := by
  obtain @⟨v, n, rest, htaken, -, hpushed⟩ := h
  have hparts := worklistWeight_parts v.parts (n + 1)
  rw [worklistWeight_perm htaken, worklistWeight_perm hpushed]
  simp only [worklistWeight] at hparts ⊢
  simp only [List.map_append, weightAll_append, hparts, List.map_cons, weightAll, weight_eq v]
  omega

theorem wellFounded_step (limit : Nat) : WellFounded fun next work => Step limit work next :=
  Subrelation.wf Step.worklistWeight_lt (measure worklistWeight).wf

theorem run_deeperOn (limit : Nat) (work : List (Value × Nat)) :
    Run limit work (deeperOn limit work) := by
  induction work using deeperOn.induct limit with
  | case1 =>
    rw [deeperOn]
    exact ⟨[], .refl, .exhausted rfl⟩
  | case2 v n work hlimit =>
    rw [deeperOn, if_pos hlimit]
    exact ⟨_, .refl, .below List.mem_cons_self hlimit⟩
  | case3 v n work hlimit ih =>
    obtain ⟨last, hsteps, hanswer⟩ := ih
    rw [deeperOn, if_neg hlimit]
    exact ⟨last, .head (.parts (.refl _) (Nat.le_of_not_lt hlimit) (.refl _)) hsteps, hanswer⟩

theorem run_iff {v : Value} : Run limit [(v, 1)] answer ↔ answer = decide (limit < depth v) := by
  have hdecide : ∀ {b}, Run limit [(v, 1)] b → b = decide (limit < depth v) := by
    intro b hrun
    rw [Bool.eq_iff_iff, hrun.eq_true_iff, decide_eq_true_iff]
    simp only [Reaches, List.mem_singleton, exists_eq_left]
    omega
  refine ⟨hdecide, ?_⟩
  rintro rfl
  have hrun := run_deeperOn limit [(v, 1)]
  rwa [hdecide hrun] at hrun

end Worklist

theorem deeper_eq (limit : Nat) (v : Value) : deeper limit v = decide (limit < depth v) :=
  Worklist.run_iff.mp (Worklist.run_deeperOn limit [(v, 1)])

end Listing.Value
