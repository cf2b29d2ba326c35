import Listing.Params.Tree
import Listing.Proofs.Policy.Shape

/-!
# Modes that search nothing

A mode acts beside an operator that searches in a text and nowhere else, so filters can be written without
the other modes. What sanitizing leaves of a condition has then the same native form: no entry of it comes
from such a mode, and a negation of nothing but modes is no negation.
-/

namespace Listing

/-! ## Filters without such modes -/

namespace FilterTree

/-- Whether a mapping has an operator that searches in a text. -/
def searches (es : Fields) : Bool := Operator.textual.any (es.has ·.token)

/-- Whether an entry is the mode of a mapping in which nothing searches. -/
def isLone (searching : Bool) (k : Key) : Bool := k.operator? = some .mode && !searching

mutual

/-- The entries of a mapping without its mode, unless something in it is `searching`, and without the lone
modes further down. -/
def shed (searching : Bool) : List (Key × Value) → Fields
  | [] => []
  | (k, v) :: rest => shedEntry searching k v ++ shed searching rest
termination_by structural es => es

/-- What is left of an entry. A negation, field or relation of which nothing is left goes too. -/
def shedEntry (searching : Bool) (k : Key) : Value → Fields
  | .map es =>
    match k.operator? with
    | none | some .not => entry k (shed (searches es) es)
    | some _ => if isLone searching k then [] else [(k, .map es)]
  | v => if isLone searching k then [] else [(k, v)]
termination_by structural v => v

end

/-- Filters without the modes of conditions in which nothing searches. -/
def withoutLoneModes (filters : Fields) : Fields := shed true filters

variable {searching : Bool} {k : Key} {v : Value} {es : Fields}

theorem shedEntry_lone (h : isLone searching k = true) (v : Value) : shedEntry searching k v = [] := by
  have hmode : k.operator? = some .mode := by simp_all [isLone]
  cases v with
  | map es => rw [shedEntry, hmode, if_pos h]
  | _ =>
    rw [shedEntry, if_pos h]
    intro es hes
    cases hes

theorem shedEntry_map (h : k.operator? = none ∨ k.operator? = some .not) (es : Fields) :
    shedEntry searching k (.map es) = entry k (shed (searches es) es) := by
  rcases h with h | h <;> rw [shedEntry, h]

theorem shedEntry_value (hlone : isLone searching k = false) (hv : v.fields? = none) :
    shedEntry searching k v = [(k, v)] := by
  cases v with
  | map es => cases hv
  | _ =>
    rw [shedEntry, if_neg (by simp [hlone])]
    intro es hes
    cases hes

theorem shedEntry_operator {op : Operator} (hlone : isLone searching k = false)
    (hop : k.operator? = some op) (hnot : op ≠ .not) : shedEntry searching k v = [(k, v)] := by
  cases v with
  | map es =>
    rw [shedEntry, hop]
    cases op with
    | not => exact absurd rfl hnot
    | _ => exact if_neg (by simp [hlone])
  | _ => exact shedEntry_value hlone rfl

theorem key_shedEntry {e : Key × Value} (h : e ∈ shedEntry searching k v) : e.1 = k := by
  cases v with
  | map es =>
    unfold shedEntry entry at h
    grind
  | _ =>
    rw [shedEntry] at h
    · grind
    · intro es hes
      cases hes

end FilterTree

open FilterTree

/-! ## Conditions -/

namespace Predicate

theorem modeEntry_of_find {es : Fields} (h : es.find Operator.mode.token = none) : modeEntry es = [] := by
  rw [modeEntry, h]

theorem modeEntry_of_silent {es : Fields} (h : searches es = false) : modeEntry es = [] := by
  unfold searches at h
  unfold modeEntry
  rw [h]
  split
  · rw [Bool.and_false]
    rfl
  · rfl

end Predicate

open Predicate

/-- A condition, and the same without lone modes: its own unless it is `searching`, and those of what it
negates. -/
inductive Sheds : Bool → Fields → Fields → Prop
  | nil {searching : Bool} : Sheds searching [] []
  | keep {searching : Bool} {op : Operator} (v : Value) {c c' : Fields}
      (stays : op = .mode → searching = true) (others : Sheds searching c c') :
      Sheds searching ((.text op.token, v) :: c) ((.text op.token, v) :: c')
  | mode (v : Value) {c c' : Fields} (others : Sheds false c c') :
      Sheds false ((.text Operator.mode.token, v) :: c) c'
  | negation {searching inward : Bool} {inner inner' c c' : Fields} (sheds : Sheds inward inner inner')
      (silent : inward = false → searches inner = false) (speaks : Sanitize.negates inner = true)
      (others : Sheds searching c c') :
      Sheds searching ((.text Operator.not.token, .map inner) :: c)
        ((.text Operator.not.token, .map inner') :: c')

namespace Sheds

variable {searching : Bool} {c c' : Fields}

theorem operators (h : Sheds searching c c') :
    (∀ e ∈ c, e.1.operator?.isSome = true) ∧ ∀ e ∈ c', e.1.operator?.isSome = true := by
  induction h with
  | nil => simp
  | keep _ _ _ ih => simpa using ih
  | mode _ _ ih => simpa using ih
  | negation _ _ _ _ _ ih => simpa using ih

theorem isCondition (h : Sheds searching c c') :
    (c ≠ [] → Predicate.isCondition c = true) ∧ (c' ≠ [] → Predicate.isCondition c' = true) := by
  obtain ⟨hc, hc'⟩ := h.operators
  constructor <;> intro hne <;> unfold Predicate.isCondition <;> rw [Bool.and_eq_true]
  · exact ⟨by simpa using hne, List.all_eq_true.mpr hc⟩
  · exact ⟨by simpa using hne, List.all_eq_true.mpr hc'⟩

theorem negates_eq (h : Sheds searching c c') : Sanitize.negates c' = Sanitize.negates c := by
  induction h with
  | nil => rfl
  | @keep _ op v _ _ _ _ ih =>
    exact congrArg (!(Key.text op.token).same (.text Operator.mode.token) || ·) ih
  | mode v _ ih => exact ih
  | negation => rfl

theorem plainEntries_eq (h : Sheds searching c c') : plainEntries c' = plainEntries c := by
  induction h with
  | nil => rfl
  | @keep _ op v _ _ _ _ ih =>
    by_cases hskip : op = .mode ∨ op = .not
    · have hskips : ∀ op', (Key.text op.token).operator? = some op' → op' = .mode ∨ op' = .not := by
        simpa using hskip
      rw [plainEntries_cons_skip hskips, plainEntries_cons_skip hskips, ih]
    · push Not at hskip
      obtain ⟨hmode, hnot⟩ := hskip
      rw [plainEntries_cons_keep (by simp) hmode hnot, plainEntries_cons_keep (by simp) hmode hnot, ih]
  | mode v _ ih => rw [plainEntries_cons_skip (by simp), ih]
  | negation _ _ _ _ _ ih =>
    rw [plainEntries_cons_skip (by simp), plainEntries_cons_skip (by simp), ih]

theorem find_eq (h : Sheds searching c c') {op : Operator} (hnot : op ≠ .not)
    (hstays : op = .mode → searching = true) : c'.find op.token = c.find op.token := by
  induction h with
  | nil => rfl
  | keep v _ _ ih => rw [Entries.find_cons, Entries.find_cons, ih hstays]
  | mode v _ ih =>
    rw [Entries.find_cons, Key.name?_text, if_neg, ih hstays]
    intro hop
    obtain rfl := Operator.token_injective (Option.some.inj hop)
    exact nomatch hstays rfl
  | negation _ _ _ _ _ ih =>
    have hother : ¬some Operator.not.token = some op.token := fun hop =>
      hnot (Operator.token_injective (Option.some.inj hop)).symm
    rw [Entries.find_cons, Entries.find_cons, Key.name?_text, if_neg hother, if_neg hother, ih hstays]

theorem find_mode (h : Sheds false c c') : c'.find Operator.mode.token = none := by
  generalize hs : false = searching at h
  induction h with
  | nil => rfl
  | @keep _ op v _ _ stays _ ih =>
    rw [Entries.find_cons, Key.name?_text, if_neg, ih hs]
    intro hop
    rw [← hs] at stays
    exact nomatch stays (Operator.token_injective (Option.some.inj hop))
  | mode v _ ih => exact ih hs
  | negation _ _ _ _ _ ih =>
    rw [Entries.find_cons, Key.name?_text, if_neg (by decide), ih hs]

theorem modeEntry_eq (h : Sheds searching c c') (hsilent : searching = false → searches c = false) :
    modeEntry c' = modeEntry c := by
  cases searching with
  | true =>
    have hfind : ∀ op : Operator, op ≠ .not → c'.find op.token = c.find op.token :=
      fun op hnot => h.find_eq hnot fun _ => rfl
    have hany : Operator.textual.any (c'.has ·.token) = Operator.textual.any (c.has ·.token) := by
      simp only [Operator.textual, List.any_cons, List.any_nil, Entries.has,
        hfind .contains (by decide), hfind .startsWith (by decide), hfind .endsWith (by decide)]
    unfold modeEntry
    rw [hfind .mode (by decide), hany]
  | false => rw [modeEntry_of_find h.find_mode, modeEntry_of_silent (hsilent rfl)]

theorem condition_eq_of_negation (h : Sheds searching c c')
    (hsilent : searching = false → searches c = false) (hnegation : negation? c' = negation? c) :
    condition c' = condition c := by
  unfold condition assemble
  rw [h.plainEntries_eq, h.modeEntry_eq hsilent, hnegation]

theorem negation?_eq (h : Sheds searching c c') : negation? c' = negation? c := by
  induction h with
  | nil => rfl
  | keep v _ _ ih => rw [negation?, negation?, ih]
  | mode v _ ih => rw [negation?, if_neg (by simp), ih]
  | @negation _ inward inner inner' _ _ sheds silent speaks _ ihinner _ =>
    have hspeaks : Sanitize.negates inner' = true := sheds.negates_eq.trans speaks
    rw [negation?, negation?, if_pos (by simp), if_pos (by simp), negated?_map, negated?_map,
      if_pos (sheds.isCondition.1 (HeldTo.ne_nil_of_negates speaks)),
      if_pos (sheds.isCondition.2 (HeldTo.ne_nil_of_negates hspeaks)),
      sheds.condition_eq_of_negation silent ihinner]

/-- **Lone modes say nothing.** Without them a condition has the same native form. -/
theorem condition_eq (h : Sheds searching c c') (hsilent : searching = false → searches c = false) :
    condition c' = condition c :=
  h.condition_eq_of_negation hsilent h.negation?_eq

end Sheds

/-! ## Sanitized conditions -/

namespace Sanitize

variable (ops : List Operator)

theorem condition_of_key {k : Key} {es : Fields} (hkey : ∀ e ∈ es, e.1 = k)
    (hk : ∀ op, k.operator? = some op → op.allowedBy ops = false) : condition ops es = [] := by
  induction es with
  | nil => rfl
  | cons e es ih =>
    obtain ⟨k', v⟩ := e
    obtain ⟨rfl, hrest⟩ := List.forall_mem_cons.mp hkey
    dsimp only at hk
    rw [condition, ih hrest, List.append_nil]
    split
    · next op hop => rw [if_neg (by simp [hk op hop])]
    · rfl

theorem condition_of_allowed {k : Key} {op : Operator} (hop : k.operator? = some op)
    (hallowed : op.allowedBy ops = true) (v : Value) (rest : Fields) :
    condition ops ((k, v) :: rest) = operand ops op v ++ condition ops rest := by
  rw [condition, hop]
  dsimp only
  rw [if_pos hallowed]

theorem searches_condition {es : Fields} (h : searches es = false) :
    searches (condition ops es) = false := by
  simp only [searches, List.any_eq_false, Entries.has, Bool.not_eq_true, Option.isSome_eq_false_iff,
    Option.isNone_iff_eq_none, Entries.find_eq_none_iff] at h ⊢
  intro op hop e he hname
  obtain ⟨e', he', op', hop', heop⟩ := mem_condition_source he
  obtain rfl : op = op' := by
    rw [Key.operator?_eq_some.mpr hname] at heop
    exact Option.some.inj heop
  exact h op hop e' he' (Key.operator?_eq_some.mp hop')

theorem condition_entry {k : Key} (hk : k.operator? = some .not) (es : Fields) :
    condition ops (entry k es) = condition ops [(k, .map es)] := by
  unfold entry
  split
  · next hempty =>
    have hnothing : condition ops [(k, .map [])] = [] := by
      rw [condition, hk]
      dsimp only
      split <;> rfl
    rw [List.isEmpty_iff.mp hempty, hnothing]
    rfl
  · rfl

theorem sheds_negation {k : Key} {v : Value} (hk : k.operator? = some .not)
    (hallowed : Operator.not.allowedBy ops = true)
    (hinner : ∀ es, v = .map es →
      Sheds (searches es) (condition ops es) (condition ops (shed (searches es) es)))
    {searching : Bool} {c c' : Fields} (hrest : Sheds searching c c') :
    Sheds searching (operand ops .not v ++ c) (condition ops (shedEntry searching k v) ++ c') := by
  cases hv : v.fields? with
  | none =>
    have hoperand : operand ops .not v = [(.text Operator.not.token, v)] := by
      cases v with
      | map es => cases hv
      | _ => rfl
    rw [shedEntry_value (by simp [isLone, hk]) hv, condition_of_allowed ops hk hallowed, hoperand]
    exact .keep _ (by simp) hrest
  | some es =>
    obtain rfl := Value.fields?_eq_some.mp hv
    have hsheds := hinner es rfl
    rw [shedEntry_map (.inr hk), condition_entry ops hk, condition_of_allowed ops hk hallowed, operand,
      operand, if_pos rfl, if_pos rfl]
    dsimp only
    rw [hsheds.negates_eq]
    split
    · next hspeaks => exact .negation hsheds (searches_condition ops) hspeaks hrest
    · exact hrest

mutual

/-- Without lone modes, sanitizing leaves of a condition what it leaves of the condition, without them. -/
theorem sheds_condition : ∀ es searching,
    Sheds searching (condition ops es) (condition ops (shed searching es))
  | [], _ => .nil
  | (k, v) :: rest, searching => by
    have hrest := sheds_condition rest searching
    rw [shed, condition_append]
    by_cases hnone : ∀ op, k.operator? = some op → op.allowedBy ops = false
    · -- nothing of this entry passes, with or without its modes
      have hdropped : condition ops [(k, v)] = [] := condition_of_key ops (by simp) hnone
      have hentry : condition ops ((k, v) :: rest) = condition ops [(k, v)] ++ condition ops rest :=
        condition_append ops [(k, v)] rest
      rw [hentry, hdropped, condition_of_key ops (fun e he => key_shedEntry he) hnone]
      exact hrest
    · push Not at hnone
      obtain ⟨op, hop, hallowed⟩ := hnone
      have hallowed := eq_true_of_ne_false hallowed
      rw [condition_of_allowed ops hop hallowed]
      by_cases hnot : op = .not
      · subst hnot
        exact sheds_negation ops hop hallowed (fun es h => sheds_operand v es h _) hrest
      · cases hlone : isLone searching k with
        | true =>
          obtain ⟨hmode, rfl⟩ : k.operator? = some .mode ∧ searching = false := by
            simpa [isLone] using hlone
          obtain rfl : op = .mode := Option.some.inj (hop.symm.trans hmode)
          rw [shedEntry_lone hlone, operand_of_ne_not ops hnot]
          exact .mode v hrest
        | false =>
          rw [shedEntry_operator hlone hop hnot, condition_of_allowed ops hop hallowed,
            operand_of_ne_not ops hnot]
          refine .keep v (fun hmode => ?_) hrest
          simpa [isLone, hop, hmode] using hlone

theorem sheds_operand : ∀ (v : Value) es, v = .map es → ∀ searching,
    Sheds searching (condition ops es) (condition ops (shed searching es))
  | .map es, _, h, searching => by
    obtain rfl := Value.map.inj h
    exact sheds_condition es searching
  | .none, _, h, _ | .bool _, _, h, _ | .int _, _, h, _ | .float _, _, h, _ | .text _, _, h, _
  | .bytes _, _, h, _ | .operator _, _, h, _ | .direction _, _, h, _ | .list _, _, h, _
  | .tuple _, _, h, _ | .set _, _, h, _ | .object _ _, _, h, _ | .items _, _, h, _ | .rule _, _, h, _
  | .policy _, _, h, _ => nomatch h

end

end Sanitize
end Listing
