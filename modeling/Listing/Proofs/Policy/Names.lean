import Listing.Policy.Sort
import Listing.Proofs.Policy.Shape

/-!
# Names that rules list

A property of names is asked of every name that rules list, also of those further down their relations.
The keys of sanitized filters are names that rules list, so they have it; those of a sanitized sort are
names that the sort rules list.
-/

namespace Listing

mutual

/-- Whether the names that a rule lists have a property, with those further down its relations. -/
def Rule.Names (named : String → Prop) : Rule → Prop
  | .operators _ => True
  | .nested rules => NamesOf named rules
termination_by structural r => r

def Rule.NamesOf (named : String → Prop) : List (Key × Rule) → Prop
  | [] => True
  | (k, r) :: rest => (∀ name, k.name? = some name → named name) ∧ r.Names named ∧ NamesOf named rest
termination_by structural rules => rules

end

variable {named : String → Prop} {rules : Entries Rule} {k : Key} {r : Rule}

theorem Rule.Names.find (h : (Rule.nested rules).Names named) {name : String}
    (hr : rules.find name = some r) : named name ∧ r.Names named := by
  induction rules with
  | nil => simp at hr
  | cons first rest ih =>
    obtain ⟨k, s⟩ := first
    obtain ⟨hk, hs, hrest⟩ := h
    rw [Entries.find_cons] at hr
    split at hr
    · next hname =>
      obtain rfl := Option.some.inj hr
      exact ⟨hk name hname, hs⟩
    · exact ih hrest hr

theorem Rule.Names.forKey? (h : (Rule.nested rules).Names named)
    (hr : Rule.forKey? rules k = some r) :
    (∃ name, k.name? = some name ∧ named name) ∧ r.Names named := by
  obtain ⟨name, hname, hfind⟩ := Option.bind_eq_some_iff.mp hr
  obtain ⟨hnamed, hrule⟩ := h.find hfind
  exact ⟨⟨name, hname, hnamed⟩, hrule⟩

theorem FieldPolicy.find_of_mem_sanitizeSort {p : FieldPolicy} {sort : Fields} {e : Key × Direction}
    (h : e ∈ p.sanitizeSort sort) :
    ∃ name rule, e.1.name? = some name ∧ p.sortable.find name = some rule := by
  obtain ⟨⟨k, v⟩, -, he⟩ := List.mem_filterMap.mp h
  dsimp only at he
  split at he
  · next d hverdict =>
    obtain rfl := Option.some.inj he
    cases hrule : k.name?.bind p.sortable.find with
    | none =>
      unfold judgeSort at hverdict
      rw [hrule] at hverdict
      cases hverdict
    | some rule =>
      obtain ⟨name, hname, hfind⟩ := Option.bind_eq_some_iff.mp hrule
      exact ⟨name, rule, hname, hfind⟩
  · cases he

end Listing
