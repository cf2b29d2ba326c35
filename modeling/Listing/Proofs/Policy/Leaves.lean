import Listing.Proofs.Policy.Shape

/-!
# What survives sanitizing

Read along a policy, filters are a row of leaves: what is asked of one field, by one operator, under some
negations. Sanitizing keeps of them the ones that the policy allows, as they are and in their order. Only
a mode can be lost although it is allowed: a negation of nothing but modes is dropped. Nothing empty is
left behind.
-/

namespace Listing

/-! ## Leaves -/

/-- What filters ask of one field: the names that lead to it, the number of negations around the
question, the operator and its operand. -/
structure Leaf where
  path : List String
  negations : Nat
  op : Operator
  operand : Value

namespace Leaf

/-- What is asked right where an operator stands. -/
def plain (op : Operator) (v : Value) : Leaf := ⟨[], 0, op, v⟩

def under (name : String) (l : Leaf) : Leaf := { l with path := name :: l.path }

def negated (l : Leaf) : Leaf := { l with negations := l.negations + 1 }

/-- Whether a leaf asks something by itself: a mode does not. -/
def speaks (l : Leaf) : Bool := l.op != .mode

/-- Whether a rule allows a leaf: its path leads through relations to a set of operators, which allows the
operator and, if there are negations, to negate. -/
def allowedBy (r : Rule) (l : Leaf) : Bool :=
  match r.follow l.path with
  | some (.operators ops) =>
    l.op.allowedBy ops && (l.negations == 0 || Operator.not.allowedBy ops)
  | _ => false

mutual

/-- The leaves of a condition; what is no operator has none. -/
def ofCondition : List (Key × Value) → List Leaf
  | [] => []
  | (k, v) :: rest =>
    (match k.operator? with
      | some op => ofOperand op v
      | none => []) ++ ofCondition rest
termination_by structural es => es

/-- The leaves of an operator and its operand: one, or those of the mapping that is negated. -/
def ofOperand (op : Operator) : Value → List Leaf
  | .map es => if op = .not then (ofCondition es).map negated else [plain op (.map es)]
  | v => [plain op v]
termination_by structural v => v

end

mutual

/-- The leaves of filters along rules; a field without a rule has none. -/
def ofFields (rules : Entries Rule) : List (Key × Value) → List Leaf
  | [] => []
  | (k, v) :: rest =>
    (match k.name? with
      | some name =>
        match rules.find name with
        | some rule => (ofField rule v).map (under name)
        | none => []
      | none => []) ++ ofFields rules rest
termination_by structural es => es

/-- The leaves of the filter on a field: those of a condition or of the filters on a relation. A bare value
where a condition is expected asks for equality. -/
def ofField (rule : Rule) : Value → List Leaf
  | .map es =>
    match rule with
    | .operators _ => ofCondition es
    | .nested rules => ofFields rules es
  | v =>
    match rule with
    | .operators _ => [plain .eq v]
    | .nested _ => []
termination_by structural v => v

end

/-- Whether the path of a leaf leads through relations to operators that allow the leaf. -/
def Allowed (rules : Entries Rule) (l : Leaf) : Prop :=
  ∃ ops, (Rule.nested rules).follow l.path = some (.operators ops) ∧ l.op ∈ ops ∧
    (l.negations ≠ 0 → .not ∈ ops)

theorem allowedBy_iff {rules : Entries Rule} {l : Leaf} :
    l.allowedBy (.nested rules) = true ↔ l.Allowed rules := by
  unfold allowedBy Allowed
  split
  · next ops hops =>
    simp only [hops, Operator.allowedBy, Bool.and_eq_true, Bool.or_eq_true, beq_iff_eq,
      List.contains_iff_mem, Option.some.injEq, Rule.operators.injEq, exists_eq_left']
    exact and_congr_right fun _ => or_iff_not_imp_left
  · next hother =>
    refine iff_of_false Bool.false_ne_true ?_
    rintro ⟨ops, hops, -⟩
    exact hother ops hops

theorem allowedBy_operators (ops : List Operator) (n : Nat) (op : Operator) (v : Value) :
    (Leaf.mk [] n op v).allowedBy (.operators ops) =
      (op.allowedBy ops && (n == 0 || Operator.not.allowedBy ops)) := rfl

theorem allowedBy_plain (ops : List Operator) (op : Operator) (v : Value) :
    (plain op v).allowedBy (.operators ops) = op.allowedBy ops := by
  rw [plain, allowedBy_operators]
  exact Bool.and_true _

theorem allowedBy_under {rules : Entries Rule} {name : String} {rule : Rule}
    (h : rules.find name = some rule) (l : Leaf) :
    (l.under name).allowedBy (.nested rules) = l.allowedBy rule := by
  rw [allowedBy, allowedBy, under, Rule.follow, h, Option.bind_some]

theorem allowedBy_negated {ops : List Operator} (h : Operator.not.allowedBy ops = true) (l : Leaf) :
    l.negated.allowedBy (.operators ops) = l.allowedBy (.operators ops) := by
  obtain ⟨path, n, op, v⟩ := l
  cases path with
  | nil => rw [negated, allowedBy_operators, allowedBy_operators, h, Bool.or_true, Bool.or_true]
  | cons name path => rfl

theorem not_allowedBy_negated {ops : List Operator} (h : Operator.not.allowedBy ops = false)
    (l : Leaf) : l.negated.allowedBy (.operators ops) = false := by
  obtain ⟨path, n, op, v⟩ := l
  cases path with
  | nil =>
    rw [negated, allowedBy_operators, h]
    exact Bool.and_false _
  | cons name path => rfl

theorem not_allowedBy_of_ofOperand {ops : List Operator} {op : Operator}
    (h : op.allowedBy ops = false) {v : Value} {l : Leaf} (hl : l ∈ ofOperand op v) :
    l.allowedBy (.operators ops) = false := by
  have hsingle : ∀ v, l ∈ [plain op v] → l.allowedBy (.operators ops) = false := by
    intro v hl
    rw [List.mem_singleton.mp hl, allowedBy_plain, h]
  cases v with
  | map es =>
    rw [ofOperand] at hl
    split at hl
    · next hop =>
      obtain ⟨l', -, rfl⟩ := List.mem_map.mp hl
      exact not_allowedBy_negated (hop ▸ h) l'
    · exact hsingle _ hl
  | _ => exact hsingle _ hl

theorem ofCondition_append (es fs : Fields) :
    ofCondition (es ++ fs) = ofCondition es ++ ofCondition fs := by
  induction es with
  | nil => rfl
  | cons e es ih =>
    obtain ⟨k, v⟩ := e
    rw [List.cons_append, ofCondition, ofCondition, ih, List.append_assoc]

theorem ofCondition_single (op : Operator) (v : Value) :
    ofCondition [(.text op.token, v)] = ofOperand op v := by
  rw [ofCondition, ofCondition, List.append_nil, Key.operator?_text, Operator.ofToken?_token]

theorem ofFields_cons_of_none {rules : Entries Rule} {k : Key} (h : Rule.forKey? rules k = none)
    (v : Value) (rest : Fields) : ofFields rules ((k, v) :: rest) = ofFields rules rest := by
  rw [Rule.forKey?] at h
  rw [ofFields]
  cases hk : k.name? with
  | none => rfl
  | some name =>
    rw [hk, Option.bind_some] at h
    dsimp only
    rw [h]
    rfl

theorem ofFields_cons_of_find {rules : Entries Rule} {k : Key} {name : String} {rule : Rule}
    (hk : k.name? = some name) (h : rules.find name = some rule) (v : Value) (rest : Fields) :
    ofFields rules ((k, v) :: rest) = (ofField rule v).map (under name) ++ ofFields rules rest := by
  rw [ofFields, hk]
  dsimp only
  rw [h]

theorem filter_speaks_of_silent {es : Fields} (h : Sanitize.negates es = false) :
    (ofCondition es).filter speaks = [] := by
  induction es with
  | nil => rfl
  | cons e es ih =>
    obtain ⟨k, v⟩ := e
    rw [Sanitize.negates, List.any_cons, Bool.or_eq_false_iff] at h
    have hmode : k.operator? = some .mode := by
      rw [Key.operator?_eq_some]
      simpa [Key.same_name] using h.1
    have hoperand : ofOperand .mode v = [plain .mode v] := by
      cases v <;> rfl
    have hsilent : ¬ (plain .mode v).speaks = true := Bool.false_ne_true
    rw [ofCondition, hmode]
    dsimp only
    rw [hoperand, List.singleton_append, List.filter_cons_of_neg hsilent]
    exact ih h.2

end Leaf

/-! ## Keeping what is allowed -/

/-- Whether what is left of a row of leaves is what is allowed, in the same order, up to modes that are
lost. -/
def Keeps (allowed : Leaf → Bool) (before after : List Leaf) : Prop :=
  after.Sublist (before.filter allowed) ∧
    after.filter Leaf.speaks = (before.filter allowed).filter Leaf.speaks

namespace Keeps

variable {allowed : Leaf → Bool} {before after : List Leaf}

theorem refl (h : ∀ l ∈ before, allowed l = true) : Keeps allowed before before := by
  rw [Keeps, List.filter_eq_self.mpr h]
  exact ⟨List.Sublist.refl _, rfl⟩

theorem nothing (h : ∀ l ∈ before, allowed l = false) : Keeps allowed before [] := by
  have hnone : before.filter allowed = [] :=
    List.filter_eq_nil_iff.mpr fun l hl => Bool.eq_false_iff.mp (h l hl)
  rw [Keeps, hnone]
  exact ⟨List.Sublist.refl _, rfl⟩

theorem silenced (h : Keeps allowed before after) (hsilent : after.filter Leaf.speaks = []) :
    Keeps allowed before [] := by
  refine ⟨List.nil_sublist _, ?_⟩
  rw [← h.2, hsilent]
  rfl

theorem append {before' after' : List Leaf} (h : Keeps allowed before after)
    (h' : Keeps allowed before' after') : Keeps allowed (before ++ before') (after ++ after') := by
  rw [Keeps, List.filter_append, List.filter_append, List.filter_append]
  exact ⟨h.1.append h'.1, congrArg₂ (· ++ ·) h.2 h'.2⟩

theorem map {allowed' : Leaf → Bool} {f : Leaf → Leaf} (hallowed : ∀ l, allowed' (f l) = allowed l)
    (hspeaks : ∀ l, (f l).speaks = l.speaks) (h : Keeps allowed before after) :
    Keeps allowed' (before.map f) (after.map f) := by
  have hkept : (before.map f).filter allowed' = (before.filter allowed).map f := by
    rw [List.filter_map]
    exact congrArg (List.map f) (List.filter_congr fun l _ => hallowed l)
  have hfilter : ∀ ls : List Leaf, (ls.map f).filter Leaf.speaks = (ls.filter Leaf.speaks).map f := by
    intro ls
    rw [List.filter_map]
    exact congrArg (List.map f) (List.filter_congr fun l _ => hspeaks l)
  rw [Keeps, hkept, hfilter, hfilter, h.2]
  exact ⟨h.1.map f, rfl⟩

end Keeps

namespace Sanitize

open Leaf

/-! ### Conditions -/

theorem keeps_plain {ops : List Operator} {op : Operator} (hop : op.allowedBy ops = true) {v : Value}
    (h : ofOperand op v = [plain op v]) :
    Keeps (allowedBy (.operators ops)) (ofOperand op v) (ofCondition [(.text op.token, v)]) := by
  rw [ofCondition_single, h]
  refine .refl fun l hl => ?_
  rw [List.mem_singleton.mp hl, allowedBy_plain, hop]

mutual

theorem keeps_condition (ops : List Operator) : ∀ es,
    Keeps (allowedBy (.operators ops)) (ofCondition es) (ofCondition (condition ops es))
  | [] => .refl fun _ h => nomatch h
  | (k, v) :: rest => by
    have hrest := keeps_condition ops rest
    rw [condition, ofCondition, ofCondition_append]
    refine .append ?_ hrest
    cases k.operator? with
    | none => exact .refl fun _ h => nomatch h
    | some op =>
      dsimp only
      by_cases hop : op.allowedBy ops = true
      · rw [if_pos hop]
        exact keeps_operand ops op hop v
      · rw [if_neg hop]
        exact .nothing fun l hl => not_allowedBy_of_ofOperand (Bool.eq_false_iff.mpr hop) hl

theorem keeps_operand (ops : List Operator) (op : Operator) (hop : op.allowedBy ops = true) : ∀ v,
    Keeps (allowedBy (.operators ops)) (ofOperand op v) (ofCondition (operand ops op v))
  | .map es => by
    have hes := keeps_condition ops es
    by_cases hnot : op = .not
    · subst hnot
      rw [ofOperand, operand, if_pos rfl, if_pos rfl]
      dsimp only
      by_cases hspeaks : negates (condition ops es) = true
      · rw [if_pos hspeaks, ofCondition_single, ofOperand, if_pos rfl]
        exact hes.map (allowedBy_negated hop) fun _ => rfl
      · -- a negation that is dropped has no leaves left but modes
        rw [if_neg hspeaks]
        have hsilent := filter_speaks_of_silent (Bool.eq_false_iff.mpr hspeaks)
        exact (hes.silenced hsilent).map (allowedBy_negated hop) fun _ => rfl
    · rw [operand_of_ne_not ops hnot]
      exact keeps_plain hop (if_neg hnot)
  | .none | .bool _ | .int _ | .float _ | .text _ | .bytes _ | .operator _ | .direction _ | .list _
  | .tuple _ | .set _ | .object _ _ | .items _ | .rule _ | .policy _ => keeps_plain hop rfl

end

theorem keeps_bare (ops : List Operator) (v : Value) :
    Keeps (allowedBy (.operators ops)) [plain .eq v] (ofCondition (bare ops v)) := by
  have hleaf : ofOperand .eq v = [plain .eq v] := by
    cases v <;> rfl
  unfold bare
  split
  · next heq =>
    have hkeeps := keeps_plain heq hleaf
    rwa [hleaf] at hkeeps
  · next heq =>
    refine .nothing fun l hl => ?_
    rw [List.mem_singleton.mp hl, allowedBy_plain]
    exact Bool.eq_false_iff.mpr heq

/-! ### Filters -/

/-- A field that is dropped since nothing is left of it would have no leaves. -/
theorem ofFields_fields_cons {rules : Entries Rule} {k : Key} {name : String} {rule : Rule}
    (hk : k.name? = some name) (h : rules.find name = some rule) (v : Value) (rest : Fields) :
    ofFields rules (fields rules ((k, v) :: rest)) =
      (ofField rule (.map (field rule v))).map (under name) ++
        ofFields rules (fields rules rest) := by
  have hrule : Rule.forKey? rules k = some rule := by
    rw [Rule.forKey?, hk, Option.bind_some, h]
  rw [fields_cons_of_rule hrule]
  by_cases hkept : (field rule v).isEmpty = true
  · rw [if_pos hkept, List.isEmpty_iff.mp hkept, List.nil_append]
    cases rule <;> rfl
  · rw [if_neg hkept, List.singleton_append, ofFields_cons_of_find hk h]

mutual

/-- Sanitizing keeps the leaves of filters that the rules allow. -/
theorem keeps_fields (rules : Entries Rule) : ∀ es,
    Keeps (allowedBy (.nested rules)) (ofFields rules es) (ofFields rules (fields rules es))
  | [] => .refl fun _ h => nomatch h
  | (k, v) :: rest => by
    have hrest := keeps_fields rules rest
    cases hrule : Rule.forKey? rules k with
    | none => rwa [ofFields_cons_of_none hrule, fields_cons_of_none hrule]
    | some rule =>
      obtain ⟨name, hname, hfind⟩ := Option.bind_eq_some_iff.mp hrule
      rw [ofFields_cons_of_find hname hfind, ofFields_fields_cons hname hfind]
      have hfield := (keeps_field rule v).map (allowedBy_under hfind) fun _ => rfl
      exact hfield.append hrest

theorem keeps_field (rule : Rule) : ∀ v,
    Keeps (allowedBy rule) (ofField rule v) (ofField rule (.map (field rule v)))
  | .map es => by
    cases rule with
    | operators ops => exact keeps_condition ops es
    | nested rules => exact keeps_fields rules es
  | .none | .bool _ | .int _ | .float _ | .text _ | .bytes _ | .operator _ | .direction _ | .list _
  | .tuple _ | .set _ | .object _ _ | .items _ | .rule _ | .policy _ => by
    cases rule with
    | operators ops => exact keeps_bare ops _
    | nested rules => exact .refl fun _ h => nomatch h

end
end Sanitize

/-! ## Nothing empty -/

mutual

/-- Whether no negation in a condition is of the empty one, nor any in what is negated. -/
def FilledCondition : List (Key × Value) → Prop
  | [] => True
  | (k, v) :: rest => (k.operator? = some .not → FilledOperand v) ∧ FilledCondition rest
termination_by structural es => es

def FilledOperand : Value → Prop
  | .map es => es ≠ [] ∧ FilledCondition es
  | _ => True
termination_by structural v => v

end

mutual

/-- Whether along rules filters hold nothing empty: each field has a rule and a mapping with entries, to
any depth of relations and negations. -/
def Filled (rules : Entries Rule) : List (Key × Value) → Prop
  | [] => True
  | (k, v) :: rest =>
    (∃ rule, Rule.forKey? rules k = some rule ∧ FilledField rule v) ∧ Filled rules rest
termination_by structural es => es

def FilledField (rule : Rule) : Value → Prop
  | .map es =>
    es ≠ [] ∧
      match rule with
      | .operators _ => FilledCondition es
      | .nested rules => Filled rules es
  | _ => False
termination_by structural v => v

end

theorem HeldTo.filled {ops : List Operator} {es : Fields} (h : HeldTo ops es) : FilledCondition es := by
  induction h with
  | nil => trivial
  | cons op v rest _ speaks negated _ ihnegated ih =>
    refine ⟨fun hnot => ?_, ih⟩
    rw [Key.operator?_text, Operator.ofToken?_token, Option.some.injEq] at hnot
    cases v with
    | map inner => exact ⟨ne_nil_of_negates (speaks inner hnot rfl), ihnegated inner hnot rfl⟩
    | _ => trivial

namespace Sanitize

mutual

theorem filled_fields (rules : Entries Rule) : ∀ es, Filled rules (fields rules es)
  | [] => trivial
  | (k, v) :: rest => by
    have hrest := filled_fields rules rest
    rcases fields_cons rules k v rest with hskip | ⟨rule, hrule, hne, hkeep⟩
    · rwa [hskip]
    · rw [hkeep]
      exact ⟨⟨rule, hrule, filled_field rule v hne⟩, hrest⟩

theorem filled_field (rule : Rule) : ∀ v, field rule v ≠ [] → FilledField rule (.map (field rule v))
  | .map es, hne => by
    cases rule with
    | operators ops => exact ⟨hne, (heldTo_condition ops es).filled⟩
    | nested rules => exact ⟨hne, filled_fields rules es⟩
  | .none, hne | .bool _, hne | .int _, hne | .float _, hne | .text _, hne | .bytes _, hne
  | .operator _, hne | .direction _, hne | .list _, hne | .tuple _, hne | .set _, hne
  | .object _ _, hne | .items _, hne | .rule _, hne | .policy _, hne => by
    cases rule with
    | operators ops => exact ⟨hne, (heldTo_bare ops _).filled⟩
    | nested rules => exact absurd rfl hne

end
end Sanitize

/-! ## What the policy allows -/

/-- Whether of filters exactly what rules allow is kept. -/
structure KeptExactly (rules : Entries Rule) (filters kept : Fields) : Prop where
  /-- Each leaf that is left is a leaf of the filters, and the rules allow it. -/
  allowed : ∀ l ∈ Leaf.ofFields rules kept, l ∈ Leaf.ofFields rules filters ∧ l.Allowed rules
  /-- Each leaf that the rules allow is left, modes apart. -/
  complete : ∀ l ∈ Leaf.ofFields rules filters, l.Allowed rules → l.op ≠ .mode →
    l ∈ Leaf.ofFields rules kept
  /-- Leaves keep their order. -/
  ordered : (Leaf.ofFields rules kept).Sublist (Leaf.ofFields rules filters)
  /-- Nothing empty is left. -/
  filled : Filled rules kept

/-- **Sanitizing keeps exactly what the policy allows.** -/
theorem keptExactly_sanitizeFilters (policy : FieldPolicy) (filters : Value) :
    KeptExactly policy.filterable filters.asFields (policy.sanitizeFilters filters.asFields) := by
  obtain ⟨hsublist, hspeaks⟩ := Sanitize.keeps_fields policy.filterable filters.asFields
  refine ⟨fun l hl => ?_, fun l hl hallowed hmode => ?_, hsublist.trans List.filter_sublist,
    Sanitize.filled_fields policy.filterable filters.asFields⟩
  · obtain ⟨hmem, hallowed⟩ := List.mem_filter.mp (hsublist.subset hl)
    exact ⟨hmem, Leaf.allowedBy_iff.mp hallowed⟩
  · have hspeaking : l.speaks = true := bne_iff_ne.mpr hmode
    have hkept := List.mem_filter.mpr
      ⟨List.mem_filter.mpr ⟨hl, Leaf.allowedBy_iff.mpr hallowed⟩, hspeaking⟩
    rw [← hspeaks] at hkept
    exact List.mem_of_mem_filter hkept

end Listing
