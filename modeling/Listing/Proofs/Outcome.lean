import Mathlib.Data.List.Forall2

/-!
# Results that may be failures

When a computation that may fail gives a result: a sequence where each step does, a row where each
element does.
-/

namespace Listing.Outcome

variable {ε α β γ δ : Type}

theorem bind_eq_ok {x : Except ε α} {f : α → Except ε β} {b : β} :
    x >>= f = .ok b ↔ ∃ a, x = .ok a ∧ f a = .ok b := by
  cases x with
  | error e => exact ⟨(nomatch ·), fun ⟨_, h, _⟩ => nomatch h⟩
  | ok a => exact ⟨fun h => ⟨a, rfl, h⟩, fun ⟨a', ha, h⟩ => by cases ha; exact h⟩

theorem pure_eq_ok {a b : α} : (pure a : Except ε α) = .ok b ↔ a = b :=
  ⟨fun h => Except.ok.inj h, fun h => congrArg Except.ok h⟩

theorem exists_bind_pure_eq_ok {x : Except ε α} {f : α → β} :
    (∃ b, (x >>= fun a => pure (f a)) = .ok b) ↔ ∃ a, x = .ok a := by
  cases x with
  | error e => exact iff_of_false (fun ⟨_, h⟩ => nomatch h) (fun ⟨_, h⟩ => nomatch h)
  | ok a => exact iff_of_true ⟨f a, rfl⟩ ⟨a, rfl⟩

theorem exists_bind_bind_pure_eq_ok {x : Except ε α} {y : Except ε β} {f : α → β → γ} :
    (∃ c, (x >>= fun a => y >>= fun b => pure (f a b)) = .ok c) ↔
      (∃ a, x = .ok a) ∧ ∃ b, y = .ok b := by
  cases x with
  | error e => exact iff_of_false (fun ⟨_, h⟩ => nomatch h) (fun ⟨⟨_, h⟩, _⟩ => nomatch h)
  | ok a =>
    cases y with
    | error e => exact iff_of_false (fun ⟨_, h⟩ => nomatch h) (fun ⟨_, _, h⟩ => nomatch h)
    | ok b => exact iff_of_true ⟨f a b, rfl⟩ ⟨⟨a, rfl⟩, ⟨b, rfl⟩⟩

theorem ofExcept_eq (x : Except ε α) : (ofExcept x : Except ε α) = x := by
  cases x <;> rfl

theorem mapM_eq_ok {f : α → Except ε β} {xs : List α} {ys : List β} :
    xs.mapM f = .ok ys ↔ List.Forall₂ (fun x y => f x = .ok y) xs ys := by
  induction xs generalizing ys with
  | nil =>
    rw [List.mapM_nil, pure_eq_ok, List.forall₂_nil_left_iff]
    exact eq_comm
  | cons x xs ih =>
    rw [List.mapM_cons, bind_eq_ok, List.forall₂_cons_left_iff]
    simp only [bind_eq_ok, pure_eq_ok, ih]
    constructor
    · rintro ⟨y, hy, ys', hys, rfl⟩
      exact ⟨y, ys', hy, hys, rfl⟩
    · rintro ⟨y, ys', hy, hys, rfl⟩
      exact ⟨y, hy, ys', hys, rfl⟩

theorem exists_result {R : α → β → Prop} {xs : List α} {ys : List β} (h : List.Forall₂ R xs ys)
    {x : α} (hx : x ∈ xs) : ∃ y ∈ ys, R x y := by
  induction h with
  | nil => simp at hx
  | cons hxy _ ih =>
    rcases List.mem_cons.mp hx with rfl | hx
    · exact ⟨_, List.mem_cons_self, hxy⟩
    · obtain ⟨y, hy, hR⟩ := ih hx
      exact ⟨y, List.mem_cons_of_mem _ hy, hR⟩

theorem exists_source {R : α → β → Prop} {xs : List α} {ys : List β} (h : List.Forall₂ R xs ys)
    {y : β} (hy : y ∈ ys) : ∃ x ∈ xs, R x y :=
  exists_result h.flip hy

theorem exists_forall₂ {R : α → β → Prop} {xs : List α} (h : ∀ x ∈ xs, ∃ y, R x y) :
    ∃ ys, List.Forall₂ R xs ys := by
  induction xs with
  | nil => exact ⟨[], .nil⟩
  | cons x xs ih =>
    obtain ⟨⟨y, hy⟩, hxs⟩ := List.forall_mem_cons.mp h
    obtain ⟨ys, hys⟩ := ih hxs
    exact ⟨y :: ys, .cons hy hys⟩

theorem exists_mapM_eq_ok_iff {f : α → Except ε β} {xs : List α} :
    (∃ ys, xs.mapM f = .ok ys) ↔ ∀ x ∈ xs, ∃ y, f x = .ok y := by
  simp only [mapM_eq_ok]
  constructor
  · rintro ⟨ys, hys⟩ x hx
    obtain ⟨y, -, hy⟩ := exists_result hys hx
    exact ⟨y, hy⟩
  · exact exists_forall₂

/-! ## Success -/

/-- Whether a computation gives a result. -/
def Succeeds (x : Except ε α) : Prop := ∃ a, x = .ok a

namespace Succeeds

theorem bind {x : Except ε α} {f : α → Except ε β} (hx : Succeeds x) (hf : ∀ a, Succeeds (f a)) :
    Succeeds (x >>= f) := by
  obtain ⟨a, rfl⟩ := hx
  exact hf a

theorem map {x : Except ε α} (hx : Succeeds x) (f : α → β) :
    Succeeds (x >>= fun a => pure (f a)) := exists_bind_pure_eq_ok.mpr hx

theorem ite {c : Prop} [Decidable c] {x y : Except ε α} (hx : Succeeds x) (hy : Succeeds y) :
    Succeeds (if c then x else y) := by
  split
  · exact hx
  · exact hy

theorem mapM {f : α → Except ε β} {xs : List α} (h : ∀ x ∈ xs, Succeeds (f x)) :
    Succeeds (xs.mapM f) := exists_mapM_eq_ok_iff.mpr h

/-- A fold gives a result if its step does wherever an invariant holds, which the step keeps. -/
theorem foldlM {f : β → α → Except ε β} {xs : List α} {P : β → Prop}
    (hstep : ∀ b, P b → ∀ x ∈ xs, Succeeds (f b x))
    (hkeep : ∀ b, P b → ∀ x ∈ xs, ∀ b', f b x = .ok b' → P b') {b : β} (hb : P b) :
    Succeeds (xs.foldlM f b) := by
  induction xs generalizing b with
  | nil => exact ⟨b, rfl⟩
  | cons x xs ih =>
    obtain ⟨next, hnext⟩ := hstep b hb x List.mem_cons_self
    rw [List.foldlM_cons, hnext]
    have hP := hkeep b hb x List.mem_cons_self next hnext
    exact ih (fun b hb y hy => hstep b hb y (List.mem_cons_of_mem _ hy))
      (fun b hb y hy => hkeep b hb y (List.mem_cons_of_mem _ hy)) hP

end Succeeds

/-! ## Requirements -/

/-- Whether a computation can fail only where a condition does not hold, and only with one known error. -/
def FailsUnless (x : Except ε α) (condition : Prop) (e : ε) : Prop :=
  match x with
  | .ok _ => True
  | .error e' => ¬condition ∧ e' = e

namespace FailsUnless

variable {e : ε} {x : Except ε α} {p q : Prop}

theorem of_ok {a : α} : FailsUnless (.ok a : Except ε α) p e := trivial

theorem bind {f : α → Except ε β} (hx : FailsUnless x p e) (hf : ∀ a, FailsUnless (f a) q e) :
    FailsUnless (x >>= f) (p ∧ q) e := by
  cases x with
  | error e' => exact ⟨fun h => hx.1 h.1, hx.2⟩
  | ok a =>
    have hfa := hf a
    show FailsUnless (f a) _ _
    unfold FailsUnless at hfa ⊢
    split at hfa
    · trivial
    · exact ⟨fun h => hfa.1 h.2, hfa.2⟩

theorem map {f : α → β} (hx : FailsUnless x p e) : FailsUnless (x >>= fun a => pure (f a)) p e := by
  cases x with
  | error e' => exact hx
  | ok a => exact trivial

theorem mapM {f : α → Except ε β} {xs : List α} {good : α → Prop}
    (h : ∀ x ∈ xs, FailsUnless (f x) (good x) e) :
    FailsUnless (xs.mapM f) (∀ x ∈ xs, good x) e := by
  induction xs with
  | nil => exact of_ok
  | cons x xs ih =>
    obtain ⟨hx, hxs⟩ := List.forall_mem_cons.mp h
    rw [List.mapM_cons, propext List.forall_mem_cons]
    exact hx.bind fun _ => (ih hxs).map

theorem succeeds (hx : FailsUnless x p e) (hp : p) : Succeeds x := by
  cases x with
  | error e' => exact absurd hp hx.1
  | ok a => exact ⟨a, rfl⟩

theorem eq_error (hx : FailsUnless x p e) (h : ¬Succeeds x) : x = .error e := by
  cases x with
  | error e' => exact congrArg _ hx.2
  | ok a => exact absurd ⟨a, rfl⟩ h

end FailsUnless

/-! ## Faults -/

/-- Whether a computation fails, with one of some faults, exactly if there is such a fault, and otherwise
gives a good result. -/
def Decides (x : Except ε α) (fault : ε → Prop) (good : α → Prop) : Prop :=
  match x with
  | .ok a => good a ∧ ∀ e, ¬ fault e
  | .error e => fault e

namespace Decides

variable {fault fault' : ε → Prop} {good : α → Prop} {good' : β → Prop}

theorem congr {x : Except ε α} (h : Decides x fault good) (hfault : ∀ e, fault e ↔ fault' e) :
    Decides x fault' good := by
  obtain rfl : fault = fault' := funext fun e => propext (hfault e)
  exact h

theorem bind {x : Except ε α} {f : α → Except ε β} (hx : Decides x fault good)
    (hf : ∀ a, good a → Decides (f a) fault' good') :
    Decides (x >>= f) (fun e => fault e ∨ fault' e) good' := by
  cases x with
  | error e => exact .inl hx
  | ok a =>
    obtain ⟨hgood, hnone⟩ := hx
    have hfa := hf a hgood
    show Decides (f a) _ _
    unfold Decides at hfa ⊢
    split at hfa
    · exact ⟨hfa.1, fun e he => he.elim (hnone e) (hfa.2 e)⟩
    · exact .inr hfa

theorem map {x : Except ε α} (hx : Decides x fault good) {f : α → β} (hf : ∀ a, good a → good' (f a)) :
    Decides (x >>= fun a => pure (f a)) fault good' := by
  cases x with
  | error e => exact hx
  | ok a => exact ⟨hf a hx.1, hx.2⟩

theorem of_ok {x : Except ε α} {a : α} (hx : x = .ok a) (ha : good a) (hfault : ∀ e, ¬ fault e) :
    Decides x fault good := by
  rw [hx]
  exact ⟨ha, hfault⟩

theorem of_error {x : Except ε α} {e : ε} (hx : x = .error e) (he : fault e) :
    Decides x fault good := by
  rw [hx]
  exact he

theorem error_iff {x : Except ε α} (hx : Decides x fault good) :
    (∃ e, x = .error e) ↔ ∃ e, fault e := by
  cases x with
  | error e => exact iff_of_true ⟨e, rfl⟩ ⟨e, hx⟩
  | ok a => exact iff_of_false (fun ⟨_, h⟩ => nomatch h) (fun ⟨e, he⟩ => hx.2 e he)

theorem fault_of_error {x : Except ε α} (hx : Decides x fault good) {e : ε} (h : x = .error e) :
    fault e := by
  rw [h] at hx
  exact hx

end Decides

/-! ## Verdicts -/

/-- Whether some element has a property and those before it have another. -/
def FirstOf (xs : List α) (good bad : α → Prop) : Prop :=
  ∃ before x after, xs = before ++ x :: after ∧ (∀ y ∈ before, good y) ∧ bad x

theorem firstOf_cons {good bad : α → Prop} {x : α} {xs : List α} :
    FirstOf (x :: xs) good bad ↔ bad x ∨ good x ∧ FirstOf xs good bad := by
  constructor
  · rintro ⟨before, y, after, heq, hbefore, hy⟩
    cases before with
    | nil =>
      obtain ⟨rfl, -⟩ := List.cons.inj heq
      exact .inl hy
    | cons z before =>
      obtain ⟨rfl, rfl⟩ := List.cons.inj heq
      obtain ⟨hz, hbefore⟩ := List.forall_mem_cons.mp hbefore
      exact .inr ⟨hz, before, y, after, rfl, hbefore, hy⟩
  · rintro (hx | ⟨hx, before, y, after, rfl, hbefore, hy⟩)
    · exact ⟨[], x, xs, rfl, by simp, hx⟩
    · exact ⟨x :: before, y, after, rfl, List.forall_mem_cons.mpr ⟨hx, hbefore⟩, hy⟩

theorem firstOf_map {good bad : β → Prop} {f : α → β} {xs : List α} :
    FirstOf (xs.map f) good bad ↔ FirstOf xs (fun x => good (f x)) fun x => bad (f x) := by
  induction xs with
  | nil => simp [FirstOf]
  | cons x xs ih => rw [List.map_cons, firstOf_cons, firstOf_cons, ih]

theorem firstOf_concat {good bad : α → Prop} {x : α} {xs : List α} :
    FirstOf (xs ++ [x]) good bad ↔ FirstOf xs good bad ∨ (∀ y ∈ xs, good y) ∧ bad x := by
  induction xs with
  | nil => simp [FirstOf, List.singleton_eq_append_iff]
  | cons y xs ih =>
    rw [List.cons_append, firstOf_cons, firstOf_cons, ih, List.forall_mem_cons, and_or_left, or_assoc,
      and_assoc]

/-- Whether a computation gives a result exactly if an input is valid, and fails with a stray error, one
that is not meant to come out, exactly if the input is astray. -/
def Judges (stray : ε → Prop) (x : Except ε α) (valid astray : Prop) : Prop :=
  match x with
  | .ok _ => valid ∧ ¬astray
  | .error e => ¬valid ∧ (astray ↔ stray e)

namespace Judges

variable {stray : ε → Prop} {x : Except ε α} {valid valid' astray astray' : Prop}

theorem congr (h : Judges stray x valid astray) (hvalid : valid ↔ valid') (hastray : astray ↔ astray') :
    Judges stray x valid' astray' := by
  rwa [← propext hvalid, ← propext hastray]

theorem of_ok {a : α} (hx : x = .ok a) (hvalid : valid) (hastray : ¬astray) :
    Judges stray x valid astray := by
  rw [hx]
  exact ⟨hvalid, hastray⟩

theorem of_error {e : ε} (hx : x = .error e) (hvalid : ¬valid) (hastray : astray ↔ stray e) :
    Judges stray x valid astray := by
  rw [hx]
  exact ⟨hvalid, hastray⟩

/-- A sequence is valid if both steps are, and goes astray where the first step that is not valid does. -/
theorem bind {f : α → Except ε β} (hx : Judges stray x valid astray)
    (hf : ∀ a, Judges stray (f a) valid' astray') :
    Judges stray (x >>= f) (valid ∧ valid') (astray ∨ valid ∧ astray') := by
  cases x with
  | error e => exact .of_error rfl (fun h => hx.1 h.1) ((or_iff_left fun h => hx.1 h.1).trans hx.2)
  | ok a =>
    obtain ⟨hvalid, hastray⟩ := hx
    refine (hf a).congr (iff_and_self.mpr fun _ => hvalid) ?_
    rw [or_iff_right hastray, and_iff_right hvalid]

theorem map {f : α → β} (hx : Judges stray x valid astray) :
    Judges stray (x >>= fun a => pure (f a)) valid astray := by
  cases x with
  | error e => exact hx
  | ok a => exact hx

theorem cons {y : Except ε β} {f : α → β → γ} {a : δ} {as : List δ} {good bad : δ → Prop}
    (hx : Judges stray x (good a) (bad a)) (hy : Judges stray y (∀ b ∈ as, good b) (FirstOf as good bad)) :
    Judges stray (x >>= fun b => y >>= fun c => pure (f b c)) (∀ b ∈ a :: as, good b)
      (FirstOf (a :: as) good bad) :=
  (hx.bind fun _ => hy.map).congr List.forall_mem_cons.symm firstOf_cons.symm

theorem mapM {f : α → Except ε β} {xs : List α} {good bad : α → Prop}
    (h : ∀ x ∈ xs, Judges stray (f x) (good x) (bad x)) :
    Judges stray (xs.mapM f) (∀ x ∈ xs, good x) (FirstOf xs good bad) := by
  induction xs with
  | nil => exact .of_ok rfl (by simp) (by simp [FirstOf])
  | cons x xs ih =>
    obtain ⟨hx, hxs⟩ := List.forall_mem_cons.mp h
    rw [List.mapM_cons]
    exact hx.cons (ih hxs)

theorem ok_iff (h : Judges stray x valid astray) : (∃ a, x = .ok a) ↔ valid := by
  cases x with
  | error e => exact iff_of_false (fun ⟨_, h⟩ => nomatch h) h.1
  | ok a => exact iff_of_true ⟨a, rfl⟩ h.1

theorem stray_iff (h : Judges stray x valid astray) : (∃ e, x = .error e ∧ stray e) ↔ astray := by
  cases x with
  | error e =>
    refine Iff.trans ⟨?_, fun he => ⟨e, rfl, he⟩⟩ h.2.symm
    rintro ⟨e', heq, he⟩
    obtain rfl := Except.error.inj heq
    exact he
  | ok a => exact iff_of_false (fun ⟨_, h, _⟩ => nomatch h) h.2

theorem meant_iff (h : Judges stray x valid astray) :
    (∃ e, x = .error e ∧ ¬stray e) ↔ ¬valid ∧ ¬astray := by
  cases x with
  | error e =>
    rw [and_iff_right h.1, h.2]
    refine ⟨?_, fun he => ⟨e, rfl, he⟩⟩
    rintro ⟨e', heq, he⟩
    obtain rfl := Except.error.inj heq
    exact he
  | ok a => exact iff_of_false (fun ⟨_, h, _⟩ => nomatch h) fun hnot => hnot.1 h.1

end Judges
end Listing.Outcome
