import Listing.Proofs.Policy.Shape

/-!
# Sanitizing under narrower policies

A policy is narrower than another if each of its fields is one of the other, with fewer operators or, on
a relation, with narrower rules. What a wider policy drops, a narrower one would drop anyway, and what a
wider one writes differently, a narrower one reads the same: to sanitize under both is to sanitize under
the narrower one.
-/

namespace Listing

/-- Whether a rule is of the kind of another and allows no more: a part of its operators, or narrower
rules for some of the fields of its relation. -/
inductive Rule.Narrower : Rule → Rule → Prop
  | operators {ps qs : List Operator} (subset : ps ⊆ qs) : Narrower (.operators ps) (.operators qs)
  | nested {ps qs : Entries Rule}
      (listed : ∀ name r, ps.find name = some r → ∃ s, qs.find name = some s)
      (narrower : ∀ name r s, ps.find name = some r → qs.find name = some s → Narrower r s) :
      Narrower (.nested ps) (.nested qs)

/-- Whether a policy lets clients filter by no more than another. -/
def FieldPolicy.Narrower (p q : FieldPolicy) : Prop :=
  (Rule.nested p.filterable).Narrower (.nested q.filterable)

section

variable {ps qs : Entries Rule} {k : Key} {name : String} {r s : Rule}

theorem Rule.narrower_nested_iff : (Rule.nested ps).Narrower (.nested qs) ↔
    ∀ name r, ps.find name = some r → ∃ s, qs.find name = some s ∧ r.Narrower s := by
  constructor
  · rintro (_ | ⟨listed, narrower⟩) name r hr
    obtain ⟨s, hs⟩ := listed name r hr
    exact ⟨s, hs, narrower name r s hr hs⟩
  · intro h
    refine .nested (fun name r hr => ?_) fun name r s hr hs => ?_
    · obtain ⟨s, hs, -⟩ := h name r hr
      exact ⟨s, hs⟩
    · obtain ⟨s', hs', hrs⟩ := h name r hr
      obtain rfl := Option.some.inj (hs'.symm.trans hs)
      exact hrs

theorem Rule.Narrower.forKey? (h : (Rule.nested ps).Narrower (.nested qs))
    (hr : Rule.forKey? ps k = some r) : ∃ s, Rule.forKey? qs k = some s ∧ r.Narrower s := by
  obtain ⟨name, hname, hfind⟩ := Option.bind_eq_some_iff.mp hr
  obtain ⟨s, hs, hrs⟩ := Rule.narrower_nested_iff.mp h name r hfind
  exact ⟨s, by rw [Rule.forKey?, hname, Option.bind_some, hs], hrs⟩

theorem Rule.Narrower.nil (qs : Entries Rule) : (Rule.nested []).Narrower (.nested qs) :=
  Rule.narrower_nested_iff.mpr fun _ _ h => nomatch h

theorem Rule.Narrower.cons (hk : k.name? = some name) (hs : qs.find name = some s)
    (hrs : r.Narrower s) (h : (Rule.nested ps).Narrower (.nested qs)) :
    (Rule.nested ((k, r) :: ps)).Narrower (.nested qs) := by
  rw [Rule.narrower_nested_iff] at h ⊢
  intro name' r' hr'
  rw [Entries.find_cons, hk] at hr'
  split at hr'
  · next hname =>
    obtain rfl := Option.some.inj hname
    obtain rfl := Option.some.inj hr'
    exact ⟨s, hs, hrs⟩
  · exact h name' r' hr'

end

mutual

theorem Rule.Narrower.refl : ∀ r : Rule, r.Narrower r
  | .operators _ => .operators (List.Subset.refl _)
  | .nested rules => by
    rw [Rule.narrower_nested_iff]
    exact fun name r hr => ⟨r, hr, Rule.Narrower.refl_find rules name r hr⟩

theorem Rule.Narrower.refl_find : ∀ (rules : List (Key × Rule)) (name : String) (r : Rule),
    Entries.find rules name = some r → r.Narrower r
  | (k, s) :: rest, name, r, h => by
    rw [Entries.find_cons] at h
    split at h
    · obtain rfl := Option.some.inj h
      exact Rule.Narrower.refl s
    · exact Rule.Narrower.refl_find rest name r h

end

namespace Sanitize

variable {ps qs : List Operator}

/-! ## Conditions -/

theorem allowedBy_of_subset (h : ps ⊆ qs) {op : Operator} (hop : op.allowedBy ps = true) :
    op.allowedBy qs = true := by
  rw [Operator.allowedBy, List.contains_iff_mem] at hop ⊢
  exact h hop

theorem negates_of_condition {ops : List Operator} {es : Fields}
    (h : negates (condition ops es) = true) : negates es = true := by
  obtain ⟨e, he, hspeaks⟩ := List.any_eq_true.mp h
  obtain ⟨e', he', op, hop', hop⟩ := mem_condition_source he
  refine List.any_eq_true.mpr ⟨e', he', ?_⟩
  rw [Key.operator?_eq_some] at hop hop'
  dsimp only at hspeaks ⊢
  rw [Key.same_name, hop] at hspeaks
  rw [Key.same_name, hop']
  exact hspeaks

mutual

/-- Of what more operators leave of a condition, fewer leave what they leave of the condition. -/
theorem condition_condition (h : ps ⊆ qs) : ∀ es, condition ps (condition qs es) = condition ps es
  | [] => rfl
  | (k, v) :: rest => by
    have hrest := condition_condition h rest
    rw [condition, condition]
    cases k.operator? with
    | none => exact hrest
    | some op =>
      dsimp only
      rw [condition_append, hrest]
      congr 1
      by_cases hq : op.allowedBy qs = true
      · rw [if_pos hq]
        exact condition_operand h op v
      · have hp : ¬ op.allowedBy ps = true := fun hp => hq (allowedBy_of_subset h hp)
        rw [if_neg hq, if_neg hp]
        rfl

theorem condition_operand (h : ps ⊆ qs) (op : Operator) : ∀ v,
    condition ps (operand qs op v) = if op.allowedBy ps then operand ps op v else []
  | .map es => by
    have hes := condition_condition h es
    by_cases hop : op = .not
    · subst hop
      rw [operand, operand, if_pos rfl, if_pos rfl]
      dsimp only
      by_cases hspeaks : negates (condition qs es) = true
      · rw [if_pos hspeaks, condition_single, operand, if_pos rfl, hes]
      · -- what the wider operators leave says nothing, so neither does what the narrower ones leave
        have hsilent : ¬ negates (condition ps es) = true := by
          rw [← hes]
          exact fun hp => hspeaks (negates_of_condition hp)
        rw [if_neg hspeaks, if_neg hsilent, ite_self]
        rfl
    · rw [operand_of_ne_not qs hop, condition_single]
  | .none | .bool _ | .int _ | .float _ | .text _ | .bytes _ | .operator _ | .direction _ | .list _
  | .tuple _ | .set _ | .object _ _ | .items _ | .rule _ | .policy _ => condition_single ps op _

end

theorem condition_bare (h : ps ⊆ qs) (v : Value) :
    condition ps (bare qs v) = bare ps v := by
  have hsingle : condition ps [(.text Operator.eq.token, v)] = bare ps v := by
    rw [condition_single, operand_of_ne_not ps (by decide)]
    rfl
  rw [bare]
  by_cases hq : Operator.eq.allowedBy qs = true
  · rw [if_pos hq, hsingle]
  · have hp : ¬ Operator.eq.allowedBy ps = true := fun hp => hq (allowedBy_of_subset h hp)
    rw [if_neg hq, bare, if_neg hp]
    rfl

/-! ## Filters -/

mutual

theorem fields_fields {ps qs : Entries Rule} (h : (Rule.nested ps).Narrower (.nested qs)) :
    ∀ es, fields ps (fields qs es) = fields ps es
  | [] => rfl
  | (k, v) :: rest => by
    have hrest := fields_fields h rest
    cases hr : Rule.forKey? ps k with
    | none =>
      rw [fields_cons_of_none hr]
      rcases fields_cons qs k v rest with hskip | ⟨s, -, -, hkeep⟩
      · rw [hskip, hrest]
      · rw [hkeep, fields_cons_of_none hr, hrest]
    | some r =>
      obtain ⟨s, hs, hrs⟩ := h.forKey? hr
      have hfield := field_field hrs v
      rw [fields_cons_of_rule hr, fields_cons_of_rule hs]
      by_cases hkept : (field s v).isEmpty = true
      · -- what is left of nothing is nothing
        have hnone : field r v = [] := by
          rw [← hfield, List.isEmpty_iff.mp hkept]
          cases r <;> rfl
        rw [if_pos hkept, hnone, List.nil_append, hrest]
        rfl
      · rw [if_neg hkept, List.singleton_append, fields_cons_of_rule hr, hfield, hrest]

theorem field_field {r s : Rule} (h : r.Narrower s) : ∀ v, field r (.map (field s v)) = field r v
  | .map es => by
    cases h with
    | operators subset => exact condition_condition subset es
    | nested listed narrower => exact fields_fields (.nested listed narrower) es
  | .none | .bool _ | .int _ | .float _ | .text _ | .bytes _ | .operator _ | .direction _ | .list _
  | .tuple _ | .set _ | .object _ _ | .items _ | .rule _ | .policy _ => by
    cases h with
    | operators subset => exact condition_bare subset _
    | nested listed narrower => rfl

end
end Sanitize

theorem FieldPolicy.sanitizeFilters_idem (p : FieldPolicy) (es : Fields) :
    p.sanitizeFilters (p.sanitizeFilters es) = p.sanitizeFilters es :=
  Sanitize.fields_fields (Rule.Narrower.refl _) es

/-- **Sanitizing composes along policies.** What a policy allows of the filters that a wider one allows is
what it allows of the filters, entry by entry and in the same order. -/
theorem sanitizeFilters_narrower {p q : FieldPolicy} (h : p.Narrower q) (filters : Value) :
    p.sanitizeFilters (Value.map (q.sanitizeFilters filters.asFields)).asFields =
      p.sanitizeFilters filters.asFields :=
  Sanitize.fields_fields h filters.asFields

/-- Members by name and team. -/
def directoryPolicy : FieldPolicy where
  filterable := [(.text "name", .operators [.eq, .contains, .mode, .not]),
    (.text "age", .operators [.gt]),
    (.text "team", .nested [(.text "name", .operators [.isIn, .not])])]

/-- The same with fewer operators and without the age. -/
def publicPolicy : FieldPolicy where
  filterable := [(.text "team", .nested [(.text "name", .operators [.isIn])]),
    (.text "name", .operators [.not, .eq, .mode])]

/-- What is asked of a member's name, in words that neither policy knows and words that only one does. -/
def anyName : Fields :=
  [(.text "$like", .text "B%"), (.text Operator.contains.token, .text "o"),
    (.text Operator.not.token,
      .map [(.text Operator.mode.token, .text "insensitive"), (.text Operator.contains.token, .text "x")]),
    (.text Operator.eq.token, .text "Bob")]

/-- Filters on a member, the team's name and a field that neither policy lists. -/
def directoryFilters : Value :=
  .map [(.text "name", .map anyName), (.text "secret", .int 1), (.text "age", .int 5),
    (.text "team", .map [(.text "name", .map [(.text Operator.isIn.token, .list [.text "Core"])])])]

/-- The negation loses its search under the narrower policy, and then says nothing. -/
theorem sanitizeFilters_narrower_directory :
    publicPolicy.Narrower directoryPolicy ∧
      publicPolicy.sanitizeFilters
          (Value.map (directoryPolicy.sanitizeFilters directoryFilters.asFields)).asFields =
        [(.text "name", .map [(.text Operator.eq.token, .text "Bob")]),
          (.text "team",
            .map [(.text "name", .map [(.text Operator.isIn.token, .list [.text "Core"])])])] := by
  have hteam : (Rule.nested [(.text "name", .operators [.isIn])]).Narrower
      (.nested [(.text "name", .operators [.isIn, .not])]) :=
    .cons rfl rfl (.operators (by decide)) (.nil _)
  have hnarrower : publicPolicy.Narrower directoryPolicy :=
    .cons rfl rfl hteam (.cons rfl rfl (.operators (by decide)) (.nil _))
  exact ⟨hnarrower, sanitizeFilters_narrower hnarrower directoryFilters⟩

end Listing
