import Listing.Key
import Mathlib.Logic.Function.Defs

/-!
# Tokens of operators

The token of an operator names it and no other, in a text and in a key of a mapping, and so does the
name of a native key.
-/

namespace Listing

@[simp] theorem Operator.ofToken?_token (op : Operator) : Operator.ofToken? op.token = some op := by
  cases op <;> rfl

theorem Operator.token_injective : Function.Injective Operator.token := by
  intro a b h
  have h' := congrArg Operator.ofToken? h
  simpa using h'

theorem Operator.ofToken?_eq_some {s : String} {op : Operator} :
    Operator.ofToken? s = some op ↔ s = op.token := by
  constructor
  · intro h
    have h' := List.find?_some h
    exact (beq_iff_eq.mp h').symm
  · rintro rfl
    exact Operator.ofToken?_token op

theorem Operator.ofWord?_eq_some {s : String} {op : Operator} :
    Operator.ofWord? s = some op ↔ s = op.token ∨ s = op.word := by
  constructor
  · intro h
    rcases Option.or_eq_some_iff.mp h with htoken | ⟨-, hword⟩
    · exact .inl (Operator.ofToken?_eq_some.mp htoken)
    · have hfound := List.find?_some hword
      exact .inr (beq_iff_eq.mp hfound).symm
  · rintro (rfl | rfl) <;> cases op <;> decide

theorem NativeKey.ofName?_eq_some {s : String} {key : NativeKey} :
    NativeKey.ofName? s = some key ↔ s = key.name := by
  constructor
  · intro h
    have h' := List.find?_some h
    exact (beq_iff_eq.mp h').symm
  · rintro rfl
    cases key <;> rfl

theorem Key.operator?_eq_some {k : Key} {op : Operator} :
    k.operator? = some op ↔ k.name? = some op.token := by
  cases k with
  | text s => simpa using Operator.ofToken?_eq_some
  | operator op' =>
    simp only [Key.operator?, Key.name?, Option.some.injEq]
    exact ⟨fun h => h ▸ rfl, fun h => Operator.token_injective h⟩
  | direction d => cases d <;> cases op <;> decide
  | _ => simp [Key.operator?, Key.name?]

theorem Key.same_of_operator? {a b : Key} {op : Operator} (ha : a.operator? = some op)
    (hb : b.operator? = some op) : a.same b = true := by
  rw [Key.operator?_eq_some] at ha hb
  simp [Key.same, ha, hb]

end Listing
