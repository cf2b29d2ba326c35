import Listing.Proofs.Policy.Kept
import Listing.Proofs.Predicate.Native
import Listing.Proofs.Value.Written

/-!
# Integers in predicates

Sanitizing filters and turning them into a predicate moves operands and writes new keys, all of them
texts. So the predicate holds no longer integers than the filters do.
-/

namespace Listing

namespace Value

variable {es fs : List (Key × Value)} {k : Key} {v : Value}

theorem shortEntries_nil : ShortEntries [] := trivial

theorem shortEntries_single (hk : k.Short) (hv : v.Short) : ShortEntries [(k, v)] :=
  ⟨hk, hv, trivial⟩

theorem shortEntries_append (hes : ShortEntries es) (hfs : ShortEntries fs) :
    ShortEntries (es ++ fs) := by
  rw [shortEntries_iff] at *
  exact List.forall_mem_append.mpr ⟨hes, hfs⟩

theorem shortEntries_put (hes : ShortEntries es) (hk : k.Short) (hv : v.Short) :
    ShortEntries (Entries.put es k v) := by
  induction es with
  | nil => exact shortEntries_single hk hv
  | cons e es ih =>
    obtain ⟨k', w⟩ := e
    obtain ⟨hk', hw, hrest⟩ := hes
    rw [Entries.put]
    split
    · exact ⟨hk', hv, hrest⟩
    · exact ⟨hk', hw, ih hrest⟩

theorem short_of_find (hes : ShortEntries es) {name : String} (h : Entries.find es name = some v) :
    v.Short := by
  obtain ⟨k, -, hmem⟩ := Entries.mem_of_find h
  exact (shortEntries_iff.mp hes _ hmem).2

end Value

open Value

/-! ## Sanitizing -/

namespace Sanitize

theorem short_bare (ops : List Operator) {v : Value} (h : v.Short) : ShortEntries (bare ops v) := by
  unfold bare
  split
  · exact shortEntries_single trivial h
  · exact shortEntries_nil

mutual

theorem short_condition (ops : List Operator) : ∀ es, ShortEntries es →
    ShortEntries (condition ops es)
  | [], _ => shortEntries_nil
  | (k, v) :: rest, ⟨_, hv, hrest⟩ => by
    rw [condition]
    refine shortEntries_append ?_ (short_condition ops rest hrest)
    cases k.operator? with
    | none => exact shortEntries_nil
    | some op =>
      dsimp only
      split
      · exact short_operand ops op v hv
      · exact shortEntries_nil

theorem short_operand (ops : List Operator) (op : Operator) : ∀ v, v.Short →
    ShortEntries (operand ops op v)
  | .map es, h => by
    have hinner := short_condition ops es h
    rw [operand]
    split
    · dsimp only
      split
      · exact shortEntries_single trivial hinner
      · exact shortEntries_nil
    · exact shortEntries_single trivial h
  | .none, h | .bool _, h | .int _, h | .float _, h | .text _, h | .bytes _, h | .operator _, h
  | .direction _, h | .list _, h | .tuple _, h | .set _, h | .object _ _, h | .items _, h
  | .rule _, h | .policy _, h => shortEntries_single trivial h

end

mutual

theorem short_fields : ∀ (es : Fields) {rules : Entries Rule}, ShortEntries es →
    ShortEntries (fields rules es)
  | [], _, _ => shortEntries_nil
  | (k, v) :: rest, rules, ⟨hk, hv, hrest⟩ => by
    have hothers : ShortEntries (fields rules rest) := short_fields rest hrest
    cases hrule : Rule.forKey? rules k with
    | none =>
      rw [fields_cons_of_none hrule]
      exact hothers
    | some rule =>
      have hkept : ShortEntries (field rule v) := short_field v hv
      rw [fields_cons_of_rule hrule]
      refine shortEntries_append ?_ hothers
      split
      · exact shortEntries_nil
      · exact shortEntries_single hk hkept

theorem short_field : ∀ (v : Value) {r : Rule}, v.Short → ShortEntries (field r v)
  | .map es, r, h => by
    cases r with
    | operators ops => exact short_condition ops es h
    | nested rules => exact short_fields es h
  | .none, r, h | .bool _, r, h | .int _, r, h | .float _, r, h | .text _, r, h | .bytes _, r, h
  | .operator _, r, h | .direction _, r, h | .list _, r, h | .tuple _, r, h | .set _, r, h
  | .object _ _, r, h | .items _, r, h | .rule _, r, h | .policy _, r, h => by
    cases r with
    | operators ops => exact short_bare ops h
    | nested rules => exact shortEntries_nil

end
end Sanitize

/-! ## Turning into a predicate -/

namespace Predicate

theorem short_plainEntries {es : Fields} (h : ShortEntries es) : ShortEntries (plainEntries es) := by
  induction es with
  | nil => exact shortEntries_nil
  | cons e es ih =>
    obtain ⟨k, v⟩ := e
    obtain ⟨-, hv, hrest⟩ := h
    by_cases hskip : ∀ op, k.operator? = some op → op = .mode ∨ op = .not
    · rw [plainEntries_cons_skip hskip]
      exact ih hrest
    · push Not at hskip
      obtain ⟨op, hop, hmode, hnot⟩ := hskip
      rw [plainEntries_cons_keep hop hmode hnot]
      exact ⟨trivial, hv, ih hrest⟩

theorem short_modeEntry {es : Fields} (h : ShortEntries es) : ShortEntries (modeEntry es) := by
  unfold modeEntry
  split
  · next mode hmode =>
    split
    · exact shortEntries_single trivial (short_of_find h hmode)
    · exact shortEntries_nil
  · exact shortEntries_nil

theorem short_assemble {es : Fields} (h : ShortEntries es) {negated : Option Value}
    (hnegated : ∀ w, negated = some w → w.Short) : ShortEntries (assemble es negated) := by
  unfold assemble
  refine shortEntries_append ?_ (short_modeEntry h)
  cases negated with
  | none => exact short_plainEntries h
  | some w => exact shortEntries_put (short_plainEntries h) trivial (hnegated w rfl)

mutual

theorem short_negation? : ∀ es, ShortEntries es → ∀ w, negation? es = some w → w.Short
  | [], _, _, h => nomatch h
  | (k, v) :: rest, ⟨_, hv, hrest⟩, w, h => by
    rw [negation?] at h
    split at h
    · exact short_negated? v hv w h
    · exact short_negation? rest hrest w h

theorem short_negated? : ∀ v, v.Short → ∀ w, negated? v = some w → w.Short
  | .map es, hv, w, h => by
    have hinner := short_assemble hv (short_negation? es hv)
    rw [negated?] at h
    split at h
    · dsimp only at h
      split at h
      · cases h
      · rw [← Option.some.inj h]
        exact hinner
    · rw [← Option.some.inj h]
      exact shortEntries_single trivial hv
  | .none, hv, w, h | .bool _, hv, w, h | .int _, hv, w, h | .float _, hv, w, h | .text _, hv, w, h
  | .bytes _, hv, w, h | .operator _, hv, w, h | .direction _, hv, w, h | .list _, hv, w, h
  | .tuple _, hv, w, h | .set _, hv, w, h | .object _ _, hv, w, h | .items _, hv, w, h
  | .rule _, hv, w, h | .policy _, hv, w, h => by
    rw [← Option.some.inj h]
    exact shortEntries_single trivial hv

end

theorem short_condition {es : Fields} (h : ShortEntries es) : ShortEntries (condition es) :=
  short_assemble h (short_negation? es h)

mutual

theorem short_ofFilters : ∀ es, ShortEntries es → ShortEntries (ofFilters es)
  | [], _ => shortEntries_nil
  | (_, v) :: rest, ⟨hk, hv, hrest⟩ => ⟨hk, short_ofFilter v hv, short_ofFilters rest hrest⟩

theorem short_ofFilter : ∀ v, v.Short → (ofFilter v).Short
  | .map es, h => by
    have hinner := short_ofFilters es h
    rw [ofFilter]
    split
    · exact short_condition h
    · exact hinner
  | .none, h | .bool _, h | .int _, h | .float _, h | .text _, h | .bytes _, h | .operator _, h
  | .direction _, h | .list _, h | .tuple _, h | .set _, h | .object _ _, h | .items _, h
  | .rule _, h | .policy _, h => shortEntries_single trivial h

end
end Predicate
end Listing
