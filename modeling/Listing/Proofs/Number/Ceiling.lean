import Listing.Page.Quantity
import Listing.Proofs.Number.Quotient
import Listing.Proofs.Outcome

/-!
# The ceiling of a rounded quotient

A quotient of integers that is rounded to the binary64 format has the ceiling of the exact one unless
rounding reaches the integer below or passes the one above. Up to a numerator of `2 ^ 53` the one quotient
of which that is so is one so small that it is rounded to zero.
-/

namespace Listing

namespace Binary64

variable {num den : Nat} {sign : Bool} {m : Nat} {x : Int}

/-- Whether the number of the format nearest to a quotient is above the integer below the quotient's
ceiling and not above the ceiling. Between zero and one only what is so small that it is rounded to zero
is not. From one on, the rest has to be more than half a step of the format; from `2 ^ 52` on, where the
steps are whole, the ceiling has to be a number of the format, and nearest. -/
def KeepsCeiling (num den : Nat) : Prop :=
  if num = 0 then True
  else if num < den then den < num * 2 ^ 1075
  else if num / den < 2 ^ 52 then
    num % den = 0 ∨ den * 2 ^ (num / den).log2 < num % den * 2 ^ 53
  else if num % den = 0 then 2 ^ ((num / den).log2 - 52) ∣ num / den
  else 2 ^ ((num / den).log2 - 52) ∣ num / den + 1 ∧ ((num / den).log2 = 52 → RoundsUp num den)

theorem ceil_of_whole (hden : 0 < den) (hrest : num % den = 0) :
    ⌈(num : ℚ) / den⌉ = (num / den : Nat) := by
  have hpos : (0 : ℚ) < den := by exact_mod_cast hden
  have hexact : num = den * (num / den) := (Nat.mul_div_cancel' (Nat.dvd_of_mod_eq_zero hrest)).symm
  nth_rewrite 1 [hexact]
  rw [Nat.cast_mul, mul_div_cancel_left₀ _ hpos.ne', Int.ceil_natCast]

theorem ceil_of_rest (hden : 0 < den) (hrest : num % den ≠ 0) :
    ⌈(num : ℚ) / den⌉ = (num / den : Nat) + 1 := by
  have hpos : (0 : ℚ) < den := by exact_mod_cast hden
  have hbelow : num / den * den < num := by
    have := Nat.div_add_mod' num den
    omega
  have habove : num ≤ (num / den + 1) * den :=
    ((Nat.div_lt_iff_lt_mul hden).mp (Nat.lt_succ_self _)).le
  rw [Int.ceil_eq_iff, lt_div_iff₀ hpos, div_le_iff₀ hpos]
  push_cast
  rw [add_sub_cancel_right]
  exact ⟨by exact_mod_cast hbelow, by exact_mod_cast habove⟩

theorem ceil_scaled_iff {scale : Nat} (hden : 0 < den) (hscale : 0 < scale)
    (heven : num / den * scale % 2 = 0) :
    ⌈(roundHalfEven (num * scale) den : ℚ) / scale⌉ = ⌈(num : ℚ) / den⌉ ↔
      num % den = 0 ∨ den < 2 * (num % den * scale) := by
  have hpos : (0 : ℚ) < scale := by exact_mod_cast hscale
  by_cases hrest : num % den = 0
  · have hexact : num * scale = den * (num / den * scale) := by
      rw [← Nat.mul_assoc, Nat.mul_div_cancel' (Nat.dvd_of_mod_eq_zero hrest)]
    refine iff_of_true ?_ (.inl hrest)
    rw [ceil_of_whole hden hrest, hexact, roundHalfEven_mul hden, Nat.cast_mul,
      mul_div_cancel_right₀ _ hpos.ne', Int.ceil_natCast]
  · obtain ⟨-, hhigh⟩ := roundHalfEven_scaled_bounds num hden hscale
    have habove : (roundHalfEven (num * scale) den : ℚ) / scale ≤ (num / den : Nat) + 1 := by
      rw [div_le_iff₀ hpos]
      exact_mod_cast hhigh
    rw [or_iff_right hrest, ← lt_roundHalfEven_iff hden heven, ceil_of_rest hden hrest,
      Int.ceil_eq_iff]
    generalize num / den = below at habove ⊢
    push_cast
    rw [add_sub_cancel_right, and_iff_left habove, lt_div_iff₀ hpos]
    exact_mod_cast Iff.rfl

theorem ceil_ofRatio_of_places (hnum : 0 < num) (hden : 0 < den) {places : Nat}
    (hplaces : max minExponent (ratioLog2 num den - 52) = -(places : Int))
    (heven : num / den * 2 ^ places % 2 = 0)
    (h : ofRatio sign num den = .finite sign m x) :
    ⌈Dyadic.toRat ⟨m, x⟩⌉ = ⌈(num : ℚ) / den⌉ ↔
      num % den = 0 ∨ den < 2 * (num % den * 2 ^ places) := by
  have hvalue := toRat_ofRatio hnum hplaces h
  have hscaled : Dyadic.toRat ⟨m, x⟩ =
      (roundHalfEven (num * 2 ^ places) den : ℚ) / (2 ^ places : Nat) := by
    rw [hvalue, neg_neg, Int.toNat_natCast, Int.toNat_neg_natCast, pow_zero, mul_one, zpow_neg,
      zpow_natCast, ← div_eq_mul_inv]
    push_cast
    rfl
  rw [hscaled]
  exact ceil_scaled_iff hden (by positivity) heven

theorem ceil_ofRatio_below_one (hnum : 0 < num) (hlt : num < den)
    (h : ofRatio sign num den = .finite sign m x) :
    ⌈Dyadic.toRat ⟨m, x⟩⌉ = ⌈(num : ℚ) / den⌉ ↔ den < num * 2 ^ 1075 := by
  have hden := hnum.trans hlt
  have hneg := ratioLog2_neg hnum hlt
  obtain ⟨t, ht⟩ : ∃ t : Nat, ratioLog2 num den = -(t : Int) :=
    ⟨(-ratioLog2 num den).toNat, by omega⟩
  obtain ⟨places, hplaces⟩ : ∃ places : Nat, places = min 1074 (52 + t) := ⟨_, rfl⟩
  have hexponent : max minExponent (ratioLog2 num den - 52) = -(places : Int) := by
    rw [ht, minExponent]
    omega
  rw [ceil_ofRatio_of_places hnum hden hexponent (by simp [Nat.div_eq_of_lt hlt]) h,
    Nat.mod_eq_of_lt hlt, or_iff_right hnum.ne']
  -- the quotient is at least a power of two, so it is lost only where the exponent can sink no further
  have hle : den ≤ num * 2 ^ t := by
    have hlow := (ratioLog2_bounds hnum hden).1
    rw [ht, zpow_neg, zpow_natCast, inv_le_iff_one_le_mul₀ (by positivity), ← mul_div_right_comm,
      one_le_div₀ (by exact_mod_cast hden)] at hlow
    exact_mod_cast hlow
  rcases Nat.le_total 1074 (52 + t) with hlost | hkept
  · obtain rfl : places = 1074 := by omega
    rw [Nat.mul_left_comm, ← pow_succ']
  · obtain rfl : places = 52 + t := by omega
    have hmono : ∀ k, t ≤ k → num * 2 ^ t ≤ num * 2 ^ k := fun k hk =>
      Nat.mul_le_mul_left num (Nat.pow_le_pow_right (by omega) hk)
    have hfar := hmono 1074 (by omega)
    have hnear := hmono (52 + t) (by omega)
    have hsucc : num * 2 ^ 1075 = 2 * (num * 2 ^ 1074) := by rw [Nat.mul_left_comm, ← pow_succ']
    omega

theorem ceil_ofRatio_of_small (hden : 0 < den) (hle : den ≤ num) (hsmall : num / den < 2 ^ 52)
    (h : ofRatio sign num den = .finite sign m x) :
    ⌈Dyadic.toRat ⟨m, x⟩⌉ = ⌈(num : ℚ) / den⌉ ↔
      num % den = 0 ∨ den * 2 ^ (num / den).log2 < num % den * 2 ^ 53 := by
  have hlog := (Nat.log2_lt (Nat.div_pos hle hden).ne').mpr hsmall
  obtain ⟨places, hplaces⟩ : ∃ places, (num / den).log2 + (places + 1) = 52 :=
    ⟨51 - (num / den).log2, by omega⟩
  have hexponent : max minExponent (ratioLog2 num den - 52) = -((places + 1 : Nat) : Int) := by
    rw [ratioLog2_eq hden hle, minExponent]
    omega
  have heven : num / den * 2 ^ (places + 1) % 2 = 0 := by
    rw [pow_succ, ← Nat.mul_assoc, Nat.mul_mod_left]
  have hrest : num % den * 2 ^ 53 = 2 * (num % den * 2 ^ (places + 1)) * 2 ^ (num / den).log2 := by
    rw [Nat.mul_left_comm, ← pow_succ', Nat.mul_assoc, ← pow_add]
    congr 2
    omega
  rw [ceil_ofRatio_of_places (hden.trans_le hle) hden hexponent heven h, hrest,
    Nat.mul_lt_mul_right (Nat.two_pow_pos _)]

theorem ceil_ofRatio_of_large (hden : 0 < den) (hlarge : 2 ^ 52 ≤ num / den)
    (h : ofRatio sign num den = .finite sign m x) :
    ⌈Dyadic.toRat ⟨m, x⟩⌉ = ⌈(num : ℚ) / den⌉ ↔
      if num % den = 0 then 2 ^ ((num / den).log2 - 52) ∣ num / den
      else 2 ^ ((num / den).log2 - 52) ∣ num / den + 1 ∧
        ((num / den).log2 = 52 → RoundsUp num den) := by
  have hle : den ≤ num := (Nat.div_pos_iff.mp (by omega)).2
  have hlog := (Nat.le_log2 (by omega)).mpr hlarge
  obtain ⟨zeros, hzeros⟩ : ∃ zeros, (num / den).log2 = 52 + zeros := Nat.exists_eq_add_of_le hlog
  have hexponent : max minExponent (ratioLog2 num den - 52) = zeros := by
    rw [ratioLog2_eq hden hle, minExponent]
    omega
  have hvalue := toRat_ofRatio (hden.trans_le hle) hexponent h
  have hceil : ⌈Dyadic.toRat ⟨m, x⟩⌉ = (roundHalfEven num (den * 2 ^ zeros) * 2 ^ zeros : Nat) := by
    rw [hvalue, Int.toNat_neg_natCast, Int.toNat_natCast, pow_zero, Nat.mul_one, zpow_natCast]
    exact_mod_cast Int.ceil_natCast _
  have hgap : 2 ^ zeros = 1 ↔ (num / den).log2 = 52 := by
    rw [hzeros, Nat.pow_eq_one]
    omega
  rw [hceil, ← hgap, hzeros, Nat.add_sub_cancel_left]
  split
  · next hrest =>
    have hexact : num = den * (num / den) := (Nat.mul_div_cancel' (Nat.dvd_of_mod_eq_zero hrest)).symm
    rw [ceil_of_whole hden hrest, Nat.cast_inj]
    constructor
    · intro hmul
      exact ⟨_, hmul.symm.trans (Nat.mul_comm _ _)⟩
    · rintro ⟨c, hc⟩
      rw [hc, ← Nat.mul_assoc] at hexact
      rw [hexact, roundHalfEven_mul (Nat.mul_pos hden (Nat.two_pow_pos _)), ← hexact, hc, Nat.mul_comm]
  · next hrest =>
    rw [ceil_of_rest hden hrest, ← Nat.cast_succ, Nat.cast_inj]
    exact roundHalfEven_mul_eq_iff hden (Nat.two_pow_pos _) hrest

/-- **Ceilings of rounded quotients.** A rounded quotient has the ceiling of the exact one exactly if the
nearest number lies above the integer below that ceiling and not above it. -/
theorem ceil_ofRatio_iff (hden : 0 < den) (h : ofRatio sign num den = .finite sign m x) :
    ⌈Dyadic.toRat ⟨m, x⟩⌉ = ⌈(num : ℚ) / den⌉ ↔ KeepsCeiling num den := by
  unfold KeepsCeiling
  split
  · next hzero =>
    subst hzero
    rw [ofRatio, if_pos rfl] at h
    cases h
    simp [Dyadic.toRat]
  · next hzero =>
    split
    · next hlt => exact ceil_ofRatio_below_one (Nat.pos_of_ne_zero hzero) hlt h
    · next hle =>
      split
      · next hsmall => exact ceil_ofRatio_of_small hden (not_lt.mp hle) hsmall h
      · next hlarge => exact ceil_ofRatio_of_large hden (not_lt.mp hlarge) h

theorem keepsCeiling_of_le (hden : 0 < den) (hle : den ≤ num) (hnum : num ≤ 2 ^ 53) :
    KeepsCeiling num den := by
  have hsplit := Nat.div_add_mod num den
  have hwhole : 0 < num / den := Nat.div_pos hle hden
  have hself := Nat.log2_self_le hwhole.ne'
  have hlt := Nat.mod_lt num hden
  rw [KeepsCeiling, if_neg (by omega), if_neg (not_lt.mpr hle)]
  generalize num / den = whole at *
  generalize num % den = rest at *
  split
  · next hsmall =>
    have hbelow := Nat.mul_le_mul_left den hself
    refine (Nat.eq_zero_or_pos rest).imp_right fun hrest => ?_
    omega
  · next hlarge =>
    -- a quotient that large is one by one, or half of `2 ^ 53`, so nothing is left over
    have hrest : rest = 0 := by
      have hden' : den < 3 := by
        by_contra hden'
        have := Nat.mul_le_mul (not_lt.mp hden') (not_lt.mp hlarge)
        omega
      obtain rfl | rfl : den = 1 ∨ den = 2 := by omega
      · omega
      · omega
    have hbound : whole ≤ 2 ^ 53 := by
      have := Nat.le_mul_of_pos_left whole hden
      omega
    rw [if_pos hrest]
    rcases hbound.eq_or_lt with rfl | hbound
    · rw [Nat.log2_two_pow]
      exact Nat.pow_dvd_pow 2 (by omega)
    · have hlog := (Nat.log2_lt hwhole.ne').mpr hbound
      rw [show whole.log2 - 52 = 0 by omega, pow_zero]
      exact one_dvd whole

/-- The quotient of a numerator up to `2 ^ 53` keeps its ceiling unless it is rounded to zero. -/
theorem keepsCeiling_iff (hnum : 0 < num) (hnum' : num ≤ 2 ^ 53) (hden : 0 < den) :
    KeepsCeiling num den ↔ den < num * 2 ^ 1075 := by
  by_cases hlt : num < den
  · rw [KeepsCeiling, if_neg hnum.ne', if_pos hlt]
  · exact iff_of_true (keepsCeiling_of_le hden (not_lt.mp hlt) hnum') (by omega)

end Binary64

/-! ## Pages -/

namespace Quantity

open Outcome

variable {total size : Nat}

theorem pages_succeeds (htotal : total < 2 ^ 63) (size : Int) :
    Succeeds (pages (.int total) (.whole size)) := by
  have hlog : total.log2 < 1023 := by
    rcases Nat.eq_zero_or_pos total with rfl | hpos
    · decide
    · have := (Nat.log2_lt hpos.ne').mpr htotal
      omega
  obtain ⟨m, e, hfinite⟩ := Binary64.ofRatio_finite (decide ((total : Int) < 0)) size.toNat hlog
  have hratio : ratio total size = .ok (.finite (decide ((total : Int) < 0)) m e) := by
    rw [ratio, Int.natAbs_natCast, hfinite]
  rw [pages, share, hratio]
  exact ⟨_, rfl⟩

theorem pages_of_finite {m : Nat} {e : Int}
    (h : Binary64.ofRatio false total size = .finite false m e) :
    pages (.int total) (.whole size) = .ok ⌈Dyadic.toRat ⟨m, e⟩⌉ := by
  have hsign : decide ((total : Int) < 0) = false := decide_eq_false (by omega)
  rw [pages, share, ratio, hsign, Int.natAbs_natCast, Int.toNat_natCast, h, ← Dyadic.ceil_eq]
  rfl

theorem pages_of_infinite (h : Binary64.ofRatio false total size = .infinite false) :
    pages (.int total) (.whole size) = .error .quotientPastFloat := by
  have hsign : decide ((total : Int) < 0) = false := decide_eq_false (by omega)
  rw [pages, share, ratio, hsign, Int.natAbs_natCast, Int.toNat_natCast, h]
  rfl

theorem pages_succeeds_iff (hsize : 0 < size) :
    Succeeds (pages (.int total) (.whole size)) ↔ total < (2 ^ 54 - 1) * 2 ^ 970 * size := by
  rw [← not_le, ← Binary64.ofRatio_infinite_iff false hsize]
  rcases Binary64.ofRatio_cases false total size with ⟨m, e, h⟩ | h
  · simp only [h, reduceCtorEq, not_false_eq_true, iff_true]
    exact ⟨_, pages_of_finite h⟩
  · simp only [h, not_true_eq_false, iff_false]
    rintro ⟨n, hn⟩
    rw [pages_of_infinite h] at hn
    cases hn

/-- The number of pages of a total is the ceiling of the exact quotient exactly if the rounded one keeps
it. -/
theorem pages_eq_ceil_iff (hsize : 0 < size) {pages' : Int}
    (h : pages (.int total) (.whole size) = .ok pages') :
    pages' = ⌈(total : ℚ) / size⌉ ↔ Binary64.KeepsCeiling total size := by
  rcases Binary64.ofRatio_cases false total size with ⟨m, e, hratio⟩ | hratio
  · obtain rfl := Except.ok.inj ((pages_of_finite hratio).symm.trans h)
    exact Binary64.ceil_ofRatio_iff hsize hratio
  · rw [pages_of_infinite hratio] at h
    cases h

theorem pages_eq (htotal : total < 2 ^ 53) (hsize : 0 < size) (hsize' : size ≤ 2 ^ 53) :
    pages (.int total) (.whole size) = .ok ⌈(total : ℚ) / size⌉ := by
  obtain ⟨pages', hpages⟩ := pages_succeeds (htotal.trans (by omega)) size
  have hkeeps : Binary64.KeepsCeiling total size := by
    rcases Nat.eq_zero_or_pos total with rfl | hpos
    · rw [Binary64.KeepsCeiling, if_pos rfl]
      trivial
    · exact (Binary64.keepsCeiling_iff hpos htotal.le hsize).mpr (by omega)
  rw [hpages, (pages_eq_ceil_iff hsize hpages).mpr hkeeps]

theorem pages_eq_zero (htotal : 0 < total) (hvast : total * 2 ^ 1075 ≤ size) :
    pages (.int total) (.whole size) = .ok 0 := by
  rw [pages_of_finite (Binary64.ofRatio_eq_zero htotal hvast)]
  simp [Dyadic.toRat]

end Quantity
end Listing
