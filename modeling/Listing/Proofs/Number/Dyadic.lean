import Listing.Number.Binary64
import Mathlib.Algebra.Order.Floor.Ring
import Mathlib.Data.Rat.Floor
import Mathlib.Tactic.Positivity

/-!
# Exact numbers as rationals

A mantissa and an exponent stand for a rational number: comparing two of them compares these, and the
least integer not below one is its ceiling.
-/

namespace Listing.Dyadic

/-- The rational number that an exact number is. -/
def toRat (d : Dyadic) : ℚ := d.mantissa * 2 ^ d.exponent

theorem pow_toNat {k : Int} (hk : 0 ≤ k) : ((Nat.pow 2 k.toNat : ℕ) : ℚ) = 2 ^ k := by
  have hpow : Nat.pow 2 k.toNat = 2 ^ k.toNat := rfl
  rw [hpow, Nat.cast_pow, ← zpow_natCast, Int.toNat_of_nonneg hk]
  rfl

theorem mantissaAt_eq {d : Dyadic} {e : Int} (h : e ≤ d.exponent) :
    (d.mantissaAt e : ℚ) * 2 ^ e = d.toRat := by
  rw [mantissaAt, toRat, Int.cast_mul, Int.cast_natCast, pow_toNat (by omega), mul_assoc,
    ← zpow_add₀ (by norm_num)]
  congr 2
  omega

theorem isLE_compare (a b : Dyadic) : (compare a b).isLE = true ↔ a.toRat ≤ b.toRat := by
  have hpos : (0 : ℚ) < 2 ^ min a.exponent b.exponent := zpow_pos (by norm_num) _
  unfold compare
  dsimp only
  rw [Int.isLE_compare, ← mantissaAt_eq (min_le_left a.exponent b.exponent),
    ← mantissaAt_eq (min_le_right a.exponent b.exponent), mul_le_mul_iff_left₀ hpos, Int.cast_le]

theorem ceil_eq (d : Dyadic) : ceil d = ⌈d.toRat⌉ := by
  unfold ceil
  split
  · next h =>
    have hzero := mantissaAt_eq h
    rw [zpow_zero, mul_one] at hzero
    rw [← hzero, Int.ceil_intCast]
  · next h =>
    have hexp : (2 : ℚ) ^ d.exponent = ((Nat.pow 2 (-d.exponent).toNat : ℕ) : ℚ)⁻¹ := by
      rw [pow_toNat (by omega), zpow_neg, inv_inv]
    rw [toRat, hexp, ← div_eq_mul_inv, Rat.ceil_intCast_div_natCast, Int.fdiv_eq_ediv_of_nonneg]
    exact Int.natCast_nonneg _

end Listing.Dyadic
