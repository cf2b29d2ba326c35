import Listing.Policy.Filters
import Listing.Predicate.Filters
import Listing.Proofs.Entries
import Listing.Proofs.Operator

/-!
# What sanitizing leaves

A condition that a policy's operators have passed is held to them: each entry is the token of an
allowed operator, and what stands under a negation is held to the same operators and is no mode alone.
Along a path of names through relations, sanitized filters lead to conditions held to the operators
that the policy lists at that path.
-/

namespace Listing

/-! ## Conditions held to operators -/

/-- A condition whose entries, also those under negations, are tokens of the given operators. -/
inductive HeldTo (ops : List Operator) : Fields → Prop
  | nil : HeldTo ops []
  | cons (op : Operator) (v : Value) (rest : Fields) (allowed : op ∈ ops)
      (speaks : ∀ inner, op = .not → v = .map inner → Sanitize.negates inner = true)
      (negated : ∀ inner, op = .not → v = .map inner → HeldTo ops inner)
      (others : HeldTo ops rest) : HeldTo ops ((.text op.token, v) :: rest)

namespace HeldTo

variable {ops : List Operator}

theorem append {es fs : Fields} (hes : HeldTo ops es) (hfs : HeldTo ops fs) :
    HeldTo ops (es ++ fs) := by
  induction hes with
  | nil => exact hfs
  | cons op v rest allowed speaks negated _ _ ih =>
    exact .cons op v (rest ++ fs) allowed speaks negated ih

theorem single {op : Operator} {v : Value} (allowed : op ∈ ops)
    (speaks : ∀ inner, op = .not → v = .map inner → Sanitize.negates inner = true)
    (negated : ∀ inner, op = .not → v = .map inner → HeldTo ops inner) :
    HeldTo ops [(.text op.token, v)] :=
  .cons op v [] allowed speaks negated .nil

theorem mem {es : Fields} (h : HeldTo ops es) {e : Key × Value} (he : e ∈ es) :
    ∃ op ∈ ops, e.1 = .text op.token := by
  induction h with
  | nil => simp at he
  | cons op v rest allowed _ _ _ _ ih =>
    rcases List.mem_cons.mp he with rfl | he
    · exact ⟨op, allowed, rfl⟩
    · exact ih he

theorem of_find {es : Fields} (h : HeldTo ops es) {op : Operator} {v : Value}
    (hfind : es.find op.token = some v) : op ∈ ops := by
  obtain ⟨k, hk, hmem⟩ := Entries.mem_of_find hfind
  obtain ⟨op', hop', hkey⟩ := h.mem hmem
  rw [show k = .text op'.token from hkey, Key.name?_text] at hk
  rwa [← Operator.token_injective (Option.some.inj hk)]

theorem negation {es : Fields} (h : HeldTo ops es) {inner : Fields}
    (hfind : es.find Operator.not.token = some (.map inner)) :
    Sanitize.negates inner = true ∧ HeldTo ops inner := by
  induction h with
  | nil => simp at hfind
  | cons op v rest _ speaks negated _ _ ih =>
    rw [Entries.find_cons, Key.name?_text] at hfind
    split at hfind
    · next hkey =>
      have hop : op = .not := Operator.token_injective (Option.some.inj hkey)
      have hv : v = .map inner := Option.some.inj hfind
      exact ⟨speaks inner hop hv, negated inner hop hv⟩
    · exact ih hfind

/-- What holds of a condition if it holds of what the condition negates holds of every condition. -/
theorem negation_induction {motive : ∀ es, HeldTo ops es → Prop}
    (step : ∀ es (h : HeldTo ops es),
      (∀ inner (hfind : es.find Operator.not.token = some (.map inner)),
        motive inner (h.negation hfind).2) → motive es h)
    {es : Fields} (h : HeldTo ops es) : motive es h := by
  refine step es h ?_
  induction h with
  | nil => simp
  | cons op v rest _ _ negated _ ihinner ihrest =>
    intro inner hfind
    rw [Entries.find_cons, Key.name?_text] at hfind
    split at hfind
    · next hkey =>
      have hop : op = .not := Operator.token_injective (Option.some.inj hkey)
      have hv : v = .map inner := Option.some.inj hfind
      exact step inner (negated inner hop hv) (ihinner inner hop hv)
    · exact ihrest inner hfind

theorem isCondition {es : Fields} (h : HeldTo ops es) (hne : es ≠ []) :
    Predicate.isCondition es = true := by
  have hall : es.all (fun e => e.1.operator?.isSome) = true := by
    rw [List.all_eq_true]
    intro e he
    obtain ⟨op, -, hkey⟩ := h.mem he
    simp [hkey]
  unfold Predicate.isCondition
  rw [Bool.and_eq_true]
  exact ⟨by simpa using hne, hall⟩

end HeldTo

namespace Sanitize

theorem condition_append (ops : List Operator) (es fs : Fields) :
    condition ops (es ++ fs) = condition ops es ++ condition ops fs := by
  induction es with
  | nil => rfl
  | cons e es ih =>
    obtain ⟨k, v⟩ := e
    rw [List.cons_append, condition, condition, ih, List.append_assoc]

theorem condition_single (ops : List Operator) (op : Operator) (v : Value) :
    condition ops [(.text op.token, v)] =
      if op.allowedBy ops then operand ops op v else [] := by
  rw [condition, condition, List.append_nil, Key.operator?_text, Operator.ofToken?_token]

theorem operand_of_ne_not (ops : List Operator) {op : Operator} (hop : op ≠ .not) (v : Value) :
    operand ops op v = [(.text op.token, v)] := by
  cases v with
  | map es => rw [operand, if_neg hop]
  | _ => rfl

theorem fields_cons_of_rule {rules : Entries Rule} {k : Key} {rule : Rule}
    (h : Rule.forKey? rules k = some rule) (v : Value) (rest : Fields) :
    fields rules ((k, v) :: rest) =
      (if (field rule v).isEmpty then [] else [(k, .map (field rule v))]) ++ fields rules rest := by
  rw [fields, h]

theorem fields_cons_of_none {rules : Entries Rule} {k : Key} (h : Rule.forKey? rules k = none)
    (v : Value) (rest : Fields) : fields rules ((k, v) :: rest) = fields rules rest := by
  rw [fields, h]
  rfl

theorem mem_of_allowedBy {op : Operator} {ops : List Operator} (h : op.allowedBy ops = true) :
    op ∈ ops := by
  simpa [Operator.allowedBy] using h

theorem heldTo_bare (ops : List Operator) (v : Value) : HeldTo ops (bare ops v) := by
  unfold bare
  split
  · next hallowed =>
    exact .single (mem_of_allowedBy hallowed) (fun _ h => nomatch h) (fun _ h => nomatch h)
  · exact .nil

mutual

theorem heldTo_condition (ops : List Operator) : ∀ es, HeldTo ops (condition ops es)
  | [] => .nil
  | (k, v) :: rest => by
    rw [condition]
    refine HeldTo.append ?_ (heldTo_condition ops rest)
    cases k.operator? with
    | none => exact .nil
    | some op =>
      dsimp only
      by_cases hallowed : op.allowedBy ops = true
      · rw [if_pos hallowed]
        exact heldTo_operand ops op (mem_of_allowedBy hallowed) v
      · rw [if_neg hallowed]
        exact .nil

theorem heldTo_operand (ops : List Operator) (op : Operator) (hop : op ∈ ops) :
    ∀ v, HeldTo ops (operand ops op v)
  | .map es => by
    rw [operand]
    split
    · next hnot =>
      have hinner := heldTo_condition ops es
      dsimp only
      by_cases hspeaks : negates (condition ops es) = true
      · rw [if_pos hspeaks]
        refine .single hop (fun inner _ hv => ?_) (fun inner _ hv => ?_)
        · rwa [← Value.map.inj hv]
        · rwa [← Value.map.inj hv]
      · rw [if_neg hspeaks]
        exact .nil
    · next hnot => exact .single hop (fun _ h => absurd h hnot) (fun _ h => absurd h hnot)
  | .none | .bool _ | .int _ | .float _ | .text _ | .bytes _ | .operator _ | .direction _ | .list _
  | .tuple _ | .set _ | .object _ _ | .items _ | .rule _ | .policy _ => by
    rw [operand]
    · exact .single hop (fun _ _ h => nomatch h) (fun _ _ h => nomatch h)
    · intro es h
      nomatch h

end

theorem heldTo_field (ops : List Operator) (v : Value) :
    HeldTo ops (field (.operators ops) v) := by
  cases v with
  | map es =>
    rw [field]
    exact heldTo_condition ops es
  | _ =>
    rw [field]
    · exact heldTo_bare ops _
    · intro es h
      nomatch h

/-- Whatever sanitized filters hold under a name is what the rule of that name leaves, and is not
empty. -/
theorem find_fields {rules : Entries Rule} {es : Fields} {name : String} {v : Value}
    (h : (fields rules es).find name = some v) :
    ∃ rule w, rules.find name = some rule ∧ v = .map (field rule w) ∧ field rule w ≠ [] := by
  induction es with
  | nil => simp [fields] at h
  | cons e es ih =>
    obtain ⟨k, w⟩ := e
    rw [fields, Entries.find_append, Option.or_eq_some_iff] at h
    rcases h with h | ⟨-, h⟩
    · cases hrule : Rule.forKey? rules k with
      | none => simp [hrule] at h
      | some rule =>
        simp only [hrule] at h
        split at h
        · simp at h
        · next hkept =>
          rw [Entries.find_cons] at h
          split at h
          · next hk =>
            refine ⟨rule, w, ?_, (Option.some.inj h).symm, by simpa using hkept⟩
            simpa [Rule.forKey?, hk] using hrule
          · simp at h
    · exact ih h

end Sanitize

/-! ## Paths -/

/-- The rule that a path of names leads to through relations. -/
def Rule.follow : Rule → List String → Option Rule
  | r, [] => some r
  | .nested rules, name :: rest => (Entries.find rules name).bind fun r => follow r rest
  | .operators _, _ :: _ => none

/-- A path of names leads, through mappings at which it does not stop, to the mapping under its last
name. -/
inductive Leads (stops : Fields → Bool) : Fields → List String → Fields → Prop
  | last {es : Fields} {name : String} {c : Fields} (found : es.find name = some (.map c)) :
      Leads stops es [name] c
  | through {es inner : Fields} {name : String} {rest : List String} {c : Fields}
      (found : es.find name = some (.map inner)) (passes : stops inner = false)
      (leads : Leads stops inner rest c) : Leads stops es (name :: rest) c

/-- What holds of the mapping under the last name of a path, and passes from a relation to the filters it
stands in, holds along every path in sanitized filters that the rules follow. -/
theorem Leads.rule_induction {stops : Fields → Bool}
    {motive : Entries Rule → Fields → List String → Rule → Fields → Prop}
    (last : ∀ rules kept name r v, rules.find name = some r →
      kept.find name = some (.map (Sanitize.field r v)) → Sanitize.field r v ≠ [] →
      motive rules kept [name] r (Sanitize.field r v))
    (through : ∀ rules kept name related es rest r c, rules.find name = some (.nested related) →
      kept.find name = some (.map (Sanitize.fields related es)) →
      stops (Sanitize.fields related es) = false →
      motive related (Sanitize.fields related es) rest r c → motive rules kept (name :: rest) r c)
    {kept : Fields} {path : List String} {c : Fields} (h : Leads stops kept path c)
    {rules : Entries Rule} {es : Fields} (hkept : kept = Sanitize.fields rules es) {r : Rule}
    (hrule : (Rule.nested rules).follow path = some r) : motive rules kept path r c := by
  induction h generalizing rules es with
  | @last kept name c found =>
    subst hkept
    obtain ⟨rule, v, hfind, hv, hne⟩ := Sanitize.find_fields found
    obtain rfl := Value.map.inj hv
    obtain rfl : rule = r := by simpa [Rule.follow, hfind] using hrule
    exact last rules _ name rule v hfind found hne
  | @through kept inner name rest c found passes leads ih =>
    subst hkept
    obtain ⟨rule, v, hfind, hv, hne⟩ := Sanitize.find_fields found
    obtain rfl := Value.map.inj hv
    rw [Rule.follow, hfind, Option.bind_some] at hrule
    cases rule with
    | operators ops => cases leads <;> simp [Rule.follow] at hrule
    | nested related =>
      cases v with
      | map fs => exact through rules _ name related fs rest r c hfind found passes (ih rfl hrule)
      | _ => exact absurd rfl hne

end Listing
