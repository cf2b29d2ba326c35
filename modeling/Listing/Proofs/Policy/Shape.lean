import Listing.Proofs.Predicate.Containment

/-!
# The shape of sanitized filters

What sanitizing leaves of a mapping proper, one with one entry per key: under the names of fields,
conditions held to the operators of the field, in which no operator occurs twice; under the names of
relations, filters of the same shape on what the relation leads to. A property of filters is stated
`Throughout` them, along the rules of a policy.
-/

namespace Listing

/-! ## One entry per key -/

mutual

/-- Whether the mappings in a value, nested to any depth, have one entry per key. -/
def Value.Keyed : Value → Prop
  | .map es => KeyedEntries es
  | _ => True
termination_by structural v => v

def Value.KeyedEntries : List (Key × Value) → Prop
  | [] => True
  | (k, v) :: rest => (∀ e ∈ rest, k.same e.1 = false) ∧ Keyed v ∧ KeyedEntries rest
termination_by structural es => es

end

theorem Value.keyedEntries_cons {k : Key} {v : Value} {rest : Fields} :
    KeyedEntries ((k, v) :: rest) ↔
      (∀ e ∈ rest, k.same e.1 = false) ∧ Keyed v ∧ KeyedEntries rest := Iff.rfl

/-- No operator occurs twice. -/
def SingleOperators (es : Fields) : Prop := es.Pairwise fun a b => a.1.operator? ≠ b.1.operator?

namespace Sanitize

open Value Predicate

theorem operand_key {ops : List Operator} {op : Operator} {v : Value} {e : Key × Value}
    (h : e ∈ operand ops op v) : e.1 = .text op.token := by
  cases v with
  | map es =>
    rw [operand] at h
    split at h
    · dsimp only at h
      split at h
      · rw [List.mem_singleton.mp h]
      · simp at h
    · rw [List.mem_singleton.mp h]
  | _ =>
    rw [operand] at h
    · rw [List.mem_singleton.mp h]
    · intro es h
      cases h

theorem length_operand_le (ops : List Operator) (op : Operator) (v : Value) :
    (operand ops op v).length ≤ 1 := by
  cases v with
  | map es =>
    rw [operand]
    split
    · dsimp only
      split
      · exact Nat.le_refl 1
      · exact Nat.zero_le 1
    · exact Nat.le_refl 1
  | _ =>
    rw [operand]
    · exact Nat.le_refl 1
    · intro es h
      cases h

theorem condition_cons (ops : List Operator) (k : Key) (v : Value) (rest : Fields) :
    condition ops ((k, v) :: rest) = condition ops rest ∨
      ∃ op, k.operator? = some op ∧
        condition ops ((k, v) :: rest) = operand ops op v ++ condition ops rest := by
  rw [condition]
  cases hop : k.operator? with
  | none => exact .inl rfl
  | some op =>
    dsimp only
    split
    · exact .inr ⟨op, rfl, rfl⟩
    · exact .inl rfl

theorem mem_condition_source {ops : List Operator} {es : Fields} {e : Key × Value}
    (h : e ∈ condition ops es) : ∃ e' ∈ es, ∃ op, e'.1.operator? = some op ∧ e.1.operator? = some op := by
  induction es with
  | nil => simp [condition] at h
  | cons e' es ih =>
    obtain ⟨k, v⟩ := e'
    -- the entry comes from the first one or from the rest
    have hrest : e ∈ condition ops es →
        ∃ e' ∈ (k, v) :: es, ∃ op, e'.1.operator? = some op ∧ e.1.operator? = some op := by
      intro hmem
      obtain ⟨e', he', hop⟩ := ih hmem
      exact ⟨e', List.mem_cons_of_mem _ he', hop⟩
    rcases condition_cons ops k v es with hskip | ⟨op, hop, hkeep⟩
    · rw [hskip] at h
      exact hrest h
    · rw [hkeep] at h
      rcases List.mem_append.mp h with h | h
      · exact ⟨_, List.mem_cons_self, op, hop, by simp [operand_key h]⟩
      · exact hrest h

theorem single_condition (ops : List Operator) {es : Fields} (h : KeyedEntries es) :
    SingleOperators (condition ops es) := by
  induction es with
  | nil =>
    rw [condition]
    exact List.Pairwise.nil
  | cons e es ih =>
    obtain ⟨k, v⟩ := e
    obtain ⟨hother, -, hrest⟩ := keyedEntries_cons.mp h
    rcases condition_cons ops k v es with hskip | ⟨op, hop, hkeep⟩
    · rw [hskip]
      exact ih hrest
    · rw [hkeep, SingleOperators, List.pairwise_append]
      refine ⟨?_, ih hrest, fun a ha b hb heq => ?_⟩
      · have hlength := length_operand_le ops op v
        match hentries : operand ops op v with
        | [] => exact List.Pairwise.nil
        | [a] => exact List.pairwise_singleton _ a
        | a :: b :: rest => simp [hentries] at hlength
      · obtain ⟨e', he', op', hop', hb'⟩ := mem_condition_source hb
        rw [operand_key ha, Key.operator?_text, Operator.ofToken?_token, hb',
          Option.some.injEq] at heq
        subst heq
        have hsame := Key.same_of_operator? hop hop'
        rw [hother e' he'] at hsame
        nomatch hsame

theorem exists_of_find_not {ops : List Operator} {es inner : Fields} (h : KeyedEntries es)
    (hfind : (condition ops es).find Operator.not.token = some (.map inner)) :
    ∃ fs, KeyedEntries fs ∧ inner = condition ops fs := by
  induction es with
  | nil => simp [condition] at hfind
  | cons e es ih =>
    obtain ⟨k, v⟩ := e
    obtain ⟨-, hv, hrest⟩ := keyedEntries_cons.mp h
    rcases condition_cons ops k v es with hskip | ⟨op, hop, hkeep⟩
    · rw [hskip] at hfind
      exact ih hrest hfind
    · rw [hkeep, Entries.find_append, Option.or_eq_some_iff] at hfind
      rcases hfind with hfind | ⟨-, hfind⟩
      · obtain ⟨k', hk', hmem⟩ := Entries.mem_of_find hfind
        have hkey : Key.text op.token = k' := (operand_key hmem).symm
        rw [← hkey, Key.name?_text, Option.some.injEq] at hk'
        obtain rfl := Operator.token_injective hk'
        cases v with
        | map fs =>
          rw [operand, if_pos rfl] at hmem
          dsimp only at hmem
          split at hmem
          · obtain ⟨-, hinner⟩ := Prod.mk.inj (List.mem_singleton.mp hmem)
            exact ⟨fs, hv, Value.map.inj hinner⟩
          · simp at hmem
        | _ =>
          rw [operand] at hmem
          · simp at hmem
          · intro es h
            cases h
      · exact ih hrest hfind

theorem single_layer {ops : List Operator} {es d : Fields} {n : Nat} (h : KeyedEntries es)
    (hd : layer Operator.not.token n (condition ops es) = some d) : SingleOperators d := by
  induction n generalizing es with
  | zero =>
    obtain rfl := Option.some.inj hd
    exact single_condition ops h
  | succ n ih =>
    obtain ⟨inner, hfind, hd⟩ := exists_of_layer_succ hd
    obtain ⟨fs, hfs, rfl⟩ := exists_of_find_not h hfind
    exact ih hfs hd

theorem single_layer_bare {ops : List Operator} {v : Value} {d : Fields} {n : Nat}
    (hd : layer Operator.not.token n (bare ops v) = some d) : SingleOperators d := by
  have hnone : (bare ops v).find Operator.not.token = Option.none := by
    rw [Entries.find_eq_none_iff]
    intro e he
    unfold bare at he
    split at he
    · rw [List.mem_singleton.mp he, Key.name?_text]
      decide
    · simp at he
  cases n with
  | zero =>
    obtain rfl := Option.some.inj hd
    unfold bare
    split
    · exact List.pairwise_singleton _ _
    · exact List.Pairwise.nil
  | succ n =>
    rw [layer_succ_eq_none (by rw [hnone]; rfl)] at hd
    nomatch hd

theorem single_layer_field {ops : List Operator} {v : Value} {d : Fields} {n : Nat} (h : Keyed v)
    (hd : layer Operator.not.token n (field (.operators ops) v) = some d) : SingleOperators d := by
  cases v with
  | map es =>
    rw [field] at hd
    exact single_layer h hd
  | _ =>
    rw [field] at hd
    · exact single_layer_bare hd
    · intro es h
      cases h

theorem fields_cons (rules : Entries Rule) (k : Key) (v : Value) (rest : Fields) :
    fields rules ((k, v) :: rest) = fields rules rest ∨
      ∃ rule, Rule.forKey? rules k = some rule ∧ field rule v ≠ [] ∧
        fields rules ((k, v) :: rest) = (k, .map (field rule v)) :: fields rules rest := by
  rw [fields]
  cases hrule : Rule.forKey? rules k with
  | none => exact .inl rfl
  | some rule =>
    dsimp only
    split
    · exact .inl rfl
    · next hkept => exact .inr ⟨rule, rfl, by simpa using hkept, rfl⟩

theorem rule_of_mem_fields {rules : Entries Rule} {es : Fields} {e : Key × Value}
    (h : e ∈ fields rules es) : ∃ rule, Rule.forKey? rules e.1 = some rule := by
  induction es with
  | nil => simp [fields] at h
  | cons first rest ih =>
    obtain ⟨k, v⟩ := first
    rcases fields_cons rules k v rest with hskip | ⟨rule, hrule, -, hkeep⟩
    · rw [hskip] at h
      exact ih h
    · rw [hkeep] at h
      rcases List.mem_cons.mp h with rfl | h
      · exact ⟨rule, hrule⟩
      · exact ih h

end Sanitize

/-! ## Sanitized filters -/

/-- No operator occurs twice in a condition, nor in what it negates, to any depth. -/
def SingleThroughout (c : Fields) : Prop :=
  ∀ n d, Predicate.layer Operator.not.token n c = some d → SingleOperators d

theorem SingleThroughout.negation {c inner : Fields} (h : SingleThroughout c)
    (hfind : c.find Operator.not.token = some (.map inner)) : SingleThroughout inner :=
  fun n d hd => h (n + 1) d ((Predicate.layer_succ hfind n).trans hd)

/-- Filters that rules have passed. -/
inductive Kept : Entries Rule → Fields → Prop
  | nil {rules : Entries Rule} : Kept rules []
  | condition {rules : Entries Rule} {k : Key} {ops : List Operator} {c rest : Fields}
      (rule : Rule.forKey? rules k = some (.operators ops)) (held : HeldTo ops c) (ne : c ≠ [])
      (single : SingleThroughout c) (others : Kept rules rest) : Kept rules ((k, .map c) :: rest)
  | relation {rules related : Entries Rule} {k : Key} {inner rest : Fields}
      (rule : Rule.forKey? rules k = some (.nested related)) (kept : Kept related inner)
      (ne : inner ≠ []) (others : Kept rules rest) : Kept rules ((k, .map inner) :: rest)

namespace Sanitize

mutual

theorem kept_fields (rules : Entries Rule) : ∀ es, Value.KeyedEntries es → Kept rules (fields rules es)
  | [], _ => .nil
  | (k, v) :: rest, h => by
    obtain ⟨-, hv, hrest⟩ := Value.keyedEntries_cons.mp h
    have hothers := kept_fields rules rest hrest
    rcases fields_cons rules k v rest with hskip | ⟨rule, hrule, hne, hkeep⟩
    · rw [hskip]
      exact hothers
    · rw [hkeep]
      cases rule with
      | operators ops =>
        exact .condition hrule (heldTo_field ops v) hne (fun _ _ hd => single_layer_field hv hd) hothers
      | nested related => exact .relation hrule (kept_related related v hv) hne hothers

theorem kept_related (rules : Entries Rule) : ∀ v, v.Keyed → Kept rules (field (.nested rules) v)
  | .map es, h => kept_fields rules es h
  | .none, _ | .bool _, _ | .int _, _ | .float _, _ | .text _, _ | .bytes _, _ | .operator _, _
  | .direction _, _ | .list _, _ | .tuple _, _ | .set _, _ | .object _ _, _ | .items _, _
  | .rule _, _ | .policy _, _ => .nil

end

end Sanitize

theorem Value.keyedEntries_asFields {v : Value} (h : v.Keyed) : KeyedEntries v.asFields := by
  cases v with
  | map es => exact h
  | _ => trivial

theorem FieldPolicy.kept_sanitizeFilters (p : FieldPolicy) {filters : Value} (h : filters.Keyed) :
    Kept p.filterable (p.sanitizeFilters filters.asFields) :=
  Sanitize.kept_fields p.filterable _ (Value.keyedEntries_asFields h)

/-! ## Properties throughout filters -/

section

variable (name : Key → Prop) (condition relation : Fields → Prop)

mutual

/-- Whether, along rules, the names that filters ask for, the conditions on fields and the filters on
relations each have a property. -/
def Throughout (rules : Entries Rule) : List (Key × Value) → Prop
  | [] => True
  | (k, v) :: rest => name k ∧ ThroughoutAt (Rule.forKey? rules k) v ∧ Throughout rules rest
termination_by structural es => es

def ThroughoutAt (rule : Option Rule) : Value → Prop
  | .map es =>
    match rule with
    | some (.operators _) => condition es
    | some (.nested rules) => relation es ∧ Throughout rules es
    | none => True
  | _ => True
termination_by structural v => v

end

variable {name condition relation} {rules : Entries Rule} {k : Key} {es rest : Fields}

theorem throughout_condition {ops : List Operator} (h : Rule.forKey? rules k = some (.operators ops)) :
    Throughout name condition relation rules ((k, .map es) :: rest) ↔
      name k ∧ condition es ∧ Throughout name condition relation rules rest := by
  rw [Throughout, h, ThroughoutAt]

theorem throughout_relation {related : Entries Rule}
    (h : Rule.forKey? rules k = some (.nested related)) :
    Throughout name condition relation rules ((k, .map es) :: rest) ↔
      name k ∧ (relation es ∧ Throughout name condition relation related es) ∧
        Throughout name condition relation rules rest := by
  rw [Throughout, h, ThroughoutAt]

theorem Throughout.names (h : Throughout name condition relation rules es) :
    ∀ e ∈ es, name e.1 := by
  induction es with
  | nil => simp
  | cons e es ih =>
    obtain ⟨hname, -, hrest⟩ := h
    exact List.forall_mem_cons.mpr ⟨hname, ih hrest⟩

end
end Listing
