import Listing.Proofs.Policy.Kept

/-!
# The native form of a condition

Which entries the native form of a condition has, and what stands under its key `not`: the negation
if the condition has one that survives, else the operand of its inequality. In a condition held to a
policy's operators every negation survives.
-/

namespace Listing

@[simp] theorem Predicate.nativeKey?_nativeKey (op : Operator) :
    Predicate.nativeKey? (.text op.nativeKey) = some op.native := by
  cases op <;> rfl

namespace Predicate

/-! ## Entries -/

theorem plainEntries_cons_skip {k : Key} {v : Value} {es : Fields}
    (h : ∀ op, k.operator? = some op → op = .mode ∨ op = .not) :
    plainEntries ((k, v) :: es) = plainEntries es := by
  refine List.filterMap_cons_none ?_
  cases hop : k.operator? with
  | none => simp [hop]
  | some op => rcases h op hop with rfl | rfl <;> simp [hop]

theorem plainEntries_cons_keep {k : Key} {v : Value} {es : Fields} {op : Operator}
    (hop : k.operator? = some op) (hmode : op ≠ .mode) (hnot : op ≠ .not) :
    plainEntries ((k, v) :: es) = (.text op.nativeKey, v) :: plainEntries es := by
  refine List.filterMap_cons_some ?_
  cases op with
  | mode => exact absurd rfl hmode
  | not => exact absurd rfl hnot
  | _ => simp [hop]

theorem mem_plainEntries {es : Fields} {e : Key × Value} (h : e ∈ plainEntries es) :
    ∃ op : Operator, (∃ v, es.find op.token = some v) ∧ e.1 = .text op.nativeKey := by
  induction es with
  | nil => simp [plainEntries] at h
  | cons e' es ih =>
    obtain ⟨k, w⟩ := e'
    -- what the rest holds under a token is found in the whole, unless the first entry is found
    have hrest : ∀ op : Operator, (∃ v, Entries.find es op.token = some v) →
        ∃ v, Entries.find ((k, w) :: es) op.token = some v := by
      rintro op ⟨v, hv⟩
      rw [Entries.find_cons]
      split
      · exact ⟨w, rfl⟩
      · exact ⟨v, hv⟩
    by_cases hskip : ∀ op, k.operator? = some op → op = .mode ∨ op = .not
    · rw [plainEntries_cons_skip hskip] at h
      obtain ⟨op, hfound, hkey⟩ := ih h
      exact ⟨op, hrest op hfound, hkey⟩
    · push Not at hskip
      obtain ⟨op, hop, hmode, hnot⟩ := hskip
      rw [plainEntries_cons_keep hop hmode hnot] at h
      rcases List.mem_cons.mp h with rfl | h
      · refine ⟨op, ⟨w, ?_⟩, rfl⟩
        rw [Entries.find_cons, if_pos (Key.operator?_eq_some.mp hop)]
      · obtain ⟨op', hfound, hkey⟩ := ih h
        exact ⟨op', hrest op' hfound, hkey⟩

theorem nativeKey_eq_not {op : Operator} (hnot : op ≠ .not) :
    op.nativeKey = Operator.not.nativeKey ↔ op = .ne := by
  cases op with
  | not => exact absurd rfl hnot
  | _ => decide

theorem mem_modeEntry {es : Fields} {e : Key × Value} (h : e ∈ modeEntry es) :
    (∃ v, es.find Operator.mode.token = some v) ∧ e.1 = .text Operator.mode.nativeKey := by
  unfold modeEntry at h
  split at h
  · next mode hmode =>
    split at h
    · rw [List.mem_singleton] at h
      exact ⟨⟨mode, hmode⟩, congrArg Prod.fst h⟩
    · simp at h
  · simp at h

theorem negation?_eq (es : Fields) : negation? es = (es.find Operator.not.token).bind negated? := by
  induction es with
  | nil => rfl
  | cons e es ih =>
    obtain ⟨k, v⟩ := e
    rw [negation?, Entries.find_cons]
    simp only [Key.operator?_eq_some]
    split
    · rfl
    · exact ih

theorem negated?_map (es : Fields) :
    negated? (.map es) =
      if isCondition es then if (condition es).isEmpty then none else some (.map (condition es))
      else some (equality (.map es)) := by
  rw [negated?]
  rfl

theorem negated?_of_fields?_eq_none {v : Value} (h : v.fields? = none) :
    negated? v = some (equality v) := by
  cases v with
  | map es => simp [Value.fields?] at h
  | _ =>
    rw [negated?]
    intro es h'
    cases h'

theorem mem_condition {es : Fields} {e : Key × Value} (h : e ∈ condition es) :
    ∃ op : Operator, (∃ v, es.find op.token = some v) ∧ e.1 = .text op.nativeKey := by
  unfold condition assemble at h
  rw [negation?_eq] at h
  rcases List.mem_append.mp h with h | h
  · cases hnot : es.find Operator.not.token with
    | none =>
      rw [hnot] at h
      exact mem_plainEntries h
    | some v =>
      rw [hnot, Option.bind_some] at h
      split at h
      · rcases Entries.key_mem_put h with hkey | ⟨w, hw⟩
        · exact ⟨.not, ⟨v, hnot⟩, hkey⟩
        · obtain ⟨op, hfound, hop⟩ := mem_plainEntries hw
          exact ⟨op, hfound, hop⟩
      · exact mem_plainEntries h
  · exact ⟨.mode, mem_modeEntry h⟩

theorem isNativeCondition_condition (es : Fields) : isNativeCondition (condition es) = true := by
  rw [isNativeCondition, List.all_eq_true]
  intro e he
  obtain ⟨op, -, hkey⟩ := mem_condition he
  simp [isNativeKey, hkey]

theorem condition_ne_nil_of_plain {es : Fields} (h : plainEntries es ≠ []) : condition es ≠ [] := by
  unfold condition assemble
  split
  · exact List.append_ne_nil_of_left_ne_nil (Entries.put_ne_nil _ _ _) _
  · exact List.append_ne_nil_of_left_ne_nil h _

theorem condition_ne_nil_of_negation {es : Fields} {v : Value} (h : negation? es = some v) :
    condition es ≠ [] := by
  unfold condition assemble
  rw [h]
  exact List.append_ne_nil_of_left_ne_nil (Entries.put_ne_nil _ _ _) _

end Predicate

/-! ## Conditions held to operators -/

namespace HeldTo

open Predicate

variable {ops : List Operator}

theorem plainEntries_ne_nil {es : Fields} {op : Operator} {v : Value} (hmode : op ≠ .mode)
    (hnot : op ≠ .not) (h : (Key.text op.token, v) ∈ es) : plainEntries es ≠ [] := by
  apply List.ne_nil_of_mem (a := (.text op.nativeKey, v))
  refine List.mem_filterMap.mpr ⟨_, h, ?_⟩
  cases op with
  | mode => exact absurd rfl hmode
  | not => exact absurd rfl hnot
  | _ => rfl

theorem condition_ne_nil_of_survives {es : Fields} (h : HeldTo ops es)
    (hsurvives : ∀ v, es.find Operator.not.token = some v → (negated? v).isSome = true)
    (hspeaks : Sanitize.negates es = true) : condition es ≠ [] := by
  obtain ⟨⟨k, v⟩, hmem, hkey⟩ := List.any_eq_true.mp hspeaks
  obtain ⟨op, -, hop⟩ := h.mem hmem
  obtain rfl : k = .text op.token := hop
  have hmode : op ≠ .mode := by
    rintro rfl
    simp at hkey
  by_cases hnot : op = .not
  · subst hnot
    cases hfind : es.find Operator.not.token with
    | none => exact absurd rfl (Entries.find_eq_none_iff.mp hfind _ hmem)
    | some w =>
      obtain ⟨x, hx⟩ := Option.isSome_iff_exists.mp (hsurvives w hfind)
      refine condition_ne_nil_of_negation (v := x) ?_
      rw [negation?_eq, hfind, Option.bind_some, hx]
  · exact condition_ne_nil_of_plain (plainEntries_ne_nil hmode hnot hmem)

theorem ne_nil_of_negates {es : Fields} (h : Sanitize.negates es = true) : es ≠ [] := by
  rintro rfl
  simp [Sanitize.negates] at h

theorem negated?_isSome {es : Fields} (h : HeldTo ops es) :
    ∀ v, es.find Operator.not.token = some v → (negated? v).isSome = true := by
  induction h with
  | nil => simp
  | cons op w rest allowed speaks negated others ihinner ihrest =>
    intro v hfind
    rw [Entries.find_cons, Key.name?_text] at hfind
    split at hfind
    · next hkey =>
      have hop : op = .not := Operator.token_injective (Option.some.inj hkey)
      obtain rfl := Option.some.inj hfind
      cases hfields : w.fields? with
      | none => simp [negated?_of_fields?_eq_none hfields]
      | some inner =>
        have hw : w = .map inner := Value.fields?_eq_some.mp hfields
        have hinner := negated inner hop hw
        have hspeaks := speaks inner hop hw
        have hne := hinner.condition_ne_nil_of_survives (ihinner inner hop hw) hspeaks
        rw [hw, negated?_map, if_pos (hinner.isCondition (ne_nil_of_negates hspeaks))]
        simp [hne]
    · exact ihrest v hfind

theorem condition_ne_nil {es : Fields} (h : HeldTo ops es) (hspeaks : Sanitize.negates es = true) :
    condition es ≠ [] :=
  h.condition_ne_nil_of_survives h.negated?_isSome hspeaks

theorem negation?_eq_none_iff {es : Fields} (h : HeldTo ops es) :
    negation? es = none ↔ es.find Operator.not.token = none := by
  rw [negation?_eq]
  cases hfind : es.find Operator.not.token with
  | none => exact iff_of_true rfl rfl
  | some v =>
    have hsome := h.negated?_isSome v hfind
    refine iff_of_false (fun hnone => ?_) (fun hnone => nomatch hnone)
    rw [Option.bind_some] at hnone
    rw [hnone] at hsome
    nomatch hsome

theorem negated?_of_find {es inner : Fields} (h : HeldTo ops es)
    (hfind : es.find Operator.not.token = some (.map inner)) :
    negated? (.map inner) = some (.map (condition inner)) := by
  obtain ⟨hspeaks, hinner⟩ := h.negation hfind
  rw [negated?_map, if_pos (hinner.isCondition (ne_nil_of_negates hspeaks)),
    if_neg (by simpa using hinner.condition_ne_nil hspeaks)]

theorem mem_condition {es : Fields} (h : HeldTo ops es) {e : Key × Value} (he : e ∈ condition es) :
    ∃ op ∈ ops, nativeKey? e.1 = some op.native := by
  obtain ⟨op, ⟨v, hv⟩, hkey⟩ := Predicate.mem_condition he
  exact ⟨op, h.of_find hv, by rw [hkey, nativeKey?_nativeKey]⟩

end HeldTo
end Listing
