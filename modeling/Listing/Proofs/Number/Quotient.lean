import Listing.Proofs.Number.Dyadic
import Mathlib.Algebra.Order.Field.Power
import Mathlib.Tactic.FieldSimp

/-!
# Rounded quotients

A quotient of two natural numbers is rounded to the binary64 format by rounding its mantissa, scaled by the
exponent that follows from the quotient's logarithm. It is zero up to half the least positive number, and
infinite from half a step past the greatest number on.
-/

namespace Listing

namespace Binary64

/-! ## The binary logarithm of a quotient -/

theorem two_zpow_toNat (k : Int) : (2 : ℚ) ^ k = 2 ^ k.toNat / 2 ^ (-k).toNat := by
  rw [← zpow_natCast, ← zpow_natCast, ← zpow_sub₀ (by norm_num)]
  congr 1
  omega

variable {num den : Nat}

theorem ratioLog2_le (num den : Nat) : ratioLog2 num den ≤ num.log2 := by
  unfold ratioLog2
  dsimp only
  split <;> omega

theorem ratioLog2_bounds (hnum : 0 < num) (hden : 0 < den) :
    (2 : ℚ) ^ ratioLog2 num den ≤ num / den ∧ (num : ℚ) / den < 2 ^ (ratioLog2 num den + 1) := by
  have hpos : (0 : ℚ) < den := by exact_mod_cast hden
  have hnumlow : (2 : ℚ) ^ (num.log2 : Int) ≤ num := by
    rw [zpow_natCast]
    exact_mod_cast Nat.log2_self_le hnum.ne'
  have hnumhigh : (num : ℚ) < 2 ^ (num.log2 + 1 : Int) := by
    exact_mod_cast Nat.lt_log2_self (n := num)
  have hdenlow : (2 : ℚ) ^ (den.log2 : Int) ≤ den := by
    rw [zpow_natCast]
    exact_mod_cast Nat.log2_self_le hden.ne'
  have hdenhigh : (den : ℚ) < 2 ^ (den.log2 + 1 : Int) := by
    exact_mod_cast Nat.lt_log2_self (n := den)
  rw [le_div_iff₀ hpos, div_lt_iff₀ hpos]
  unfold ratioLog2
  dsimp only
  generalize hk : (num.log2 : Int) - den.log2 = k
  have hscaled : (2 : ℚ) ^ k * den ≤ num ↔ den * Nat.pow 2 k.toNat ≤ num * Nat.pow 2 (-k).toNat := by
    rw [two_zpow_toNat, div_mul_eq_mul_div, div_le_iff₀ (by positivity), mul_comm]
    exact_mod_cast Iff.rfl
  split
  · next h =>
    refine ⟨hscaled.mpr h, hnumhigh.trans_le ?_⟩
    calc (2 : ℚ) ^ (num.log2 + 1 : Int) = 2 ^ (k + 1) * 2 ^ (den.log2 : Int) := by
          rw [← zpow_add₀ (by norm_num)]
          congr 1
          omega
      _ ≤ 2 ^ (k + 1) * den := by gcongr
  · next h =>
    rw [sub_add_cancel]
    refine ⟨?_, not_le.mp (mt hscaled.mp h)⟩
    calc (2 : ℚ) ^ (k - 1) * den ≤ 2 ^ (k - 1) * 2 ^ (den.log2 + 1 : Int) := by gcongr
      _ = 2 ^ (num.log2 : Int) := by
        rw [← zpow_add₀ (by norm_num)]
        congr 1
        omega
      _ ≤ num := hnumlow

theorem lt_of_two_zpow_lt {k l : Int} (h : (2 : ℚ) ^ k < 2 ^ l) : k < l :=
  (zpow_lt_zpow_iff_right₀ (by norm_num)).mp h

theorem ratioLog2_eq (hden : 0 < den) (hle : den ≤ num) : ratioLog2 num den = (num / den).log2 := by
  obtain ⟨hlow, hhigh⟩ := ratioLog2_bounds (hden.trans_le hle) hden
  have hpos : (0 : ℚ) < den := by exact_mod_cast hden
  have hwhole : num / den ≠ 0 := (Nat.div_pos hle hden).ne'
  have hfloor : (2 : ℚ) ^ ((num / den).log2 : Int) ≤ num / den := by
    rw [zpow_natCast, le_div_iff₀ hpos]
    exact_mod_cast (Nat.mul_le_mul_right den (Nat.log2_self_le hwhole)).trans (Nat.div_mul_le_self num den)
  have hnext : (num : ℚ) / den < 2 ^ ((num / den).log2 + 1 : Int) := by
    rw [div_lt_iff₀ hpos]
    have hlt : num < 2 ^ ((num / den).log2 + 1) * den :=
      (Nat.div_lt_iff_lt_mul hden).mp Nat.lt_log2_self
    exact_mod_cast hlt
  have hone := lt_of_two_zpow_lt (hlow.trans_lt hnext)
  have htwo := lt_of_two_zpow_lt (hfloor.trans_lt hhigh)
  omega

theorem ratioLog2_neg (hnum : 0 < num) (hlt : num < den) : ratioLog2 num den < 0 := by
  obtain ⟨hlow, -⟩ := ratioLog2_bounds hnum (hnum.trans hlt)
  refine lt_of_two_zpow_lt (hlow.trans_lt ?_)
  rw [zpow_zero, div_lt_one (by exact_mod_cast hnum.trans hlt)]
  exact_mod_cast hlt

/-! ## Rounding -/

def RoundsUp (num den : Nat) : Prop :=
  den < 2 * (num % den) ∨ den = 2 * (num % den) ∧ num / den % 2 = 1

theorem roundHalfEven_of_up (h : RoundsUp num den) : roundHalfEven num den = num / den + 1 := by
  unfold RoundsUp at h
  unfold roundHalfEven
  dsimp only
  split
  · omega
  · split
    · rfl
    · split
      · omega
      · rfl

theorem roundHalfEven_of_not_up (h : ¬RoundsUp num den) : roundHalfEven num den = num / den := by
  unfold RoundsUp at h
  unfold roundHalfEven
  dsimp only
  split
  · rfl
  · split
    · omega
    · split
      · rfl
      · omega

theorem div_le_roundHalfEven (num den : Nat) : num / den ≤ roundHalfEven num den := by
  by_cases h : RoundsUp num den
  · rw [roundHalfEven_of_up h]
    omega
  · rw [roundHalfEven_of_not_up h]

theorem roundHalfEven_le (num den : Nat) : roundHalfEven num den ≤ num / den + 1 := by
  by_cases h : RoundsUp num den
  · rw [roundHalfEven_of_up h]
  · rw [roundHalfEven_of_not_up h]
    omega

theorem roundHalfEven_mul (hden : 0 < den) (k : Nat) : roundHalfEven (den * k) den = k := by
  have hexact : ¬RoundsUp (den * k) den := by
    rw [RoundsUp, Nat.mul_mod_right]
    omega
  rw [roundHalfEven_of_not_up hexact, Nat.mul_div_cancel_left k hden]

theorem roundHalfEven_scaled_bounds (num : Nat) {scale : Nat} (hden : 0 < den) (hscale : 0 < scale) :
    num / den * scale ≤ roundHalfEven (num * scale) den ∧
      roundHalfEven (num * scale) den ≤ (num / den + 1) * scale := by
  have hlow : num / den * scale ≤ num * scale / den := by
    rw [Nat.le_div_iff_mul_le hden, Nat.mul_right_comm]
    exact Nat.mul_le_mul_right scale (Nat.div_mul_le_self num den)
  have hhigh : num * scale / den < (num / den + 1) * scale := by
    rw [Nat.div_lt_iff_lt_mul hden, Nat.mul_right_comm]
    exact Nat.mul_lt_mul_of_pos_right ((Nat.div_lt_iff_lt_mul hden).mp (Nat.lt_succ_self _)) hscale
  exact ⟨hlow.trans (div_le_roundHalfEven _ _), (roundHalfEven_le _ _).trans hhigh⟩

theorem lt_roundHalfEven_iff {scale : Nat} (hden : 0 < den) (heven : num / den * scale % 2 = 0) :
    num / den * scale < roundHalfEven (num * scale) den ↔ den < 2 * (num % den * scale) := by
  have hsplit : num * scale = num % den * scale + den * (num / den * scale) := by
    nth_rewrite 1 [← Nat.mod_add_div num den]
    ring
  have hdiv : num * scale / den = num % den * scale / den + num / den * scale := by
    rw [hsplit, Nat.add_mul_div_left _ _ hden]
  have hmod : num * scale % den = num % den * scale % den := by
    rw [hsplit, Nat.add_mul_mod_self_left]
  generalize num % den * scale = rest at *
  generalize num / den * scale = below at *
  by_cases hrest : rest < den
  · -- what is rounded is the rest alone, and a half would go to the integer below, which is even
    rw [Nat.div_eq_of_lt hrest, Nat.zero_add] at hdiv
    rw [Nat.mod_eq_of_lt hrest] at hmod
    by_cases hup : RoundsUp (num * scale) den
    · rw [roundHalfEven_of_up hup]
      rw [RoundsUp, hdiv, hmod] at hup
      omega
    · rw [roundHalfEven_of_not_up hup]
      rw [RoundsUp, hdiv, hmod] at hup
      omega
  · have hone : 1 ≤ rest / den := Nat.div_pos (not_lt.mp hrest) hden
    have hround := div_le_roundHalfEven (num * scale) den
    omega

/-- Where only multiples of a number are left, rounding reaches the integer above exactly if it is one of
them; next to that number one it has to be rounded up. -/
theorem roundHalfEven_mul_eq_iff {gap : Nat} (hden : 0 < den) (hgap : 0 < gap) (hrest : num % den ≠ 0) :
    roundHalfEven num (den * gap) * gap = num / den + 1 ↔
      gap ∣ num / den + 1 ∧ (gap = 1 → RoundsUp num den) := by
  by_cases hone : gap = 1
  · subst hone
    rw [Nat.mul_one, Nat.mul_one]
    by_cases hup : RoundsUp num den
    · simp [roundHalfEven_of_up hup, hup]
    · simp [roundHalfEven_of_not_up hup, hup]
  · refine ⟨fun h => ⟨⟨_, (h.symm.trans (Nat.mul_comm _ _))⟩, fun h => absurd h hone⟩, ?_⟩
    rintro ⟨⟨c, hc⟩, -⟩
    obtain ⟨c, rfl⟩ : ∃ d, c = d + 1 := Nat.exists_eq_succ_of_ne_zero (by rintro rfl; simp at hc)
    have hnum : num = den * gap * c + (num % den + den * (gap - 1)) := by
      obtain ⟨g, rfl⟩ : ∃ g, gap = g + 1 := Nat.exists_eq_succ_of_ne_zero hgap.ne'
      have hbelow : num / den = (g + 1) * c + g := by
        rw [Nat.mul_succ] at hc
        exact Nat.succ.inj hc
      rw [Nat.add_sub_cancel, Nat.mul_assoc, Nat.add_left_comm, ← Nat.mul_add, ← hbelow,
        Nat.mod_add_div]
    have hlast : den * (gap - 1) + den = den * gap := by
      rw [← Nat.mul_succ, Nat.succ_eq_add_one, Nat.sub_add_cancel hgap]
    have hlt := Nat.mod_lt num hden
    have hdiv : num / (den * gap) = c := by
      rw [hnum, Nat.mul_add_div (Nat.mul_pos hden hgap), Nat.div_eq_of_lt (by omega), Nat.add_zero]
    have hmod : num % (den * gap) = num % den + den * (gap - 1) := by
      nth_rewrite 1 [hnum]
      rw [Nat.mul_add_mod, Nat.mod_eq_of_lt (by omega)]
    have hup : RoundsUp num (den * gap) := by
      have htwice : den * 2 ≤ den * gap := Nat.mul_le_mul_left den (by omega)
      rw [RoundsUp, hmod]
      omega
    rw [roundHalfEven_of_up hup, hdiv, hc, Nat.mul_comm]

variable {sign : Bool} {m : Nat} {x : Int}

theorem ofRatio_cases (sign : Bool) (num den : Nat) :
    (∃ m e, ofRatio sign num den = .finite sign m e) ∨ ofRatio sign num den = .infinite sign := by
  unfold ofRatio
  split
  · exact .inl ⟨0, minExponent, rfl⟩
  · dsimp only
    split
    · split
      · exact .inr rfl
      · exact .inl ⟨_, _, rfl⟩
    · split
      · exact .inr rfl
      · exact .inl ⟨_, _, rfl⟩

/-- The nearest number is a mantissa, rounded at the least exponent that leaves it 53 digits, unless the
format has no smaller one. -/
theorem toRat_ofRatio (hnum : 0 < num) {e : Int}
    (he : max minExponent (ratioLog2 num den - 52) = e)
    (h : ofRatio sign num den = .finite sign m x) :
    Dyadic.toRat ⟨m, x⟩ =
      roundHalfEven (num * 2 ^ (-e).toNat) (den * 2 ^ e.toNat) * 2 ^ e := by
  unfold ofRatio at h
  rw [if_neg hnum.ne', he] at h
  have hpow : ∀ b n : Nat, Nat.pow b n = b ^ n := fun _ _ => rfl
  simp only [hpow] at h
  generalize roundHalfEven (num * 2 ^ (-e).toNat) (den * 2 ^ e.toNat) = rounded at h
  -- a mantissa that was rounded up to `2 ^ 53` is halved, with the exponent raised by one
  by_cases hfull : rounded = 2 ^ 53
  · rw [if_pos hfull] at h
    split at h
    · cases h
    · cases h
      rw [Dyadic.toRat, hfull, zpow_add₀ (by norm_num)]
      push_cast
      ring
  · rw [if_neg hfull] at h
    split at h
    · cases h
    · cases h
      rw [Dyadic.toRat]
      push_cast
      rfl

theorem ofRatio_finite (sign : Bool) (den : Nat) (hnum : num.log2 < 1023) :
    ∃ m e, ofRatio sign num den = .finite sign m e := by
  unfold ofRatio
  by_cases hzero : num = 0
  · rw [if_pos hzero]
    exact ⟨0, minExponent, rfl⟩
  · have hle := ratioLog2_le num den
    have hexponent : max minExponent (ratioLog2 num den - 52) ≤ maxExponent - 1 := by
      rw [minExponent, maxExponent]
      omega
    rw [if_neg hzero]
    generalize max minExponent (ratioLog2 num den - 52) = e at hexponent
    dsimp only
    -- rounding up to the next power of two raises the exponent by one, which still fits
    split
    · exact ⟨_, e + 1, if_neg (by omega)⟩
    · exact ⟨_, e, if_neg (by omega)⟩

/-! ## Quotients outside the format -/

theorem ofRatio_of_round_zero (hnum : 0 < num) {e : Int}
    (he : max minExponent (ratioLog2 num den - 52) = e) (hfits : e ≤ maxExponent)
    (hround : roundHalfEven (num * 2 ^ (-e).toNat) (den * 2 ^ e.toNat) = 0) :
    ofRatio sign num den = .finite sign 0 e := by
  have hpow : ∀ b n : Nat, Nat.pow b n = b ^ n := fun _ _ => rfl
  have hcarry : ¬(0 : Nat) = 2 ^ 53 := by omega
  unfold ofRatio
  rw [if_neg hnum.ne', he]
  simp only [hpow]
  rw [hround, if_neg hcarry]
  exact if_neg (not_lt.mpr hfits)

theorem ofRatio_eq_zero (hnum : 0 < num) (hvast : num * 2 ^ 1075 ≤ den) :
    ofRatio sign num den = zero sign := by
  have hden : 0 < den := (Nat.mul_pos hnum (Nat.two_pow_pos _)).trans_le hvast
  have hlow : ratioLog2 num den < -1022 := by
    refine lt_of_two_zpow_lt ((ratioLog2_bounds hnum hden).1.trans_lt ?_)
    rw [div_lt_iff₀ (by exact_mod_cast hden), zpow_neg, lt_inv_mul_iff₀ (by positivity), mul_comm]
    have hlt : num * 2 ^ 1022 < den := by
      have := Nat.mul_lt_mul_of_pos_left (Nat.pow_lt_pow_right (a := 2) (by omega)
        (show 1022 < 1075 by omega)) hnum
      omega
    exact_mod_cast hlt
  have hexponent : max minExponent (ratioLog2 num den - 52) = minExponent :=
    max_eq_left (by rw [minExponent]; omega)
  have hsmall : num * 2 ^ 1074 < den := by
    have := Nat.mul_pos hnum (Nat.two_pow_pos 1074)
    omega
  have hdown : ¬RoundsUp (num * 2 ^ 1074) den := by
    rw [RoundsUp, Nat.mod_eq_of_lt hsmall, Nat.div_eq_of_lt hsmall]
    omega
  refine ofRatio_of_round_zero hnum hexponent (by decide) ?_
  rw [show (-minExponent).toNat = 1074 from rfl, show minExponent.toNat = 0 from rfl, pow_zero,
    Nat.mul_one, roundHalfEven_of_not_up hdown, Nat.div_eq_of_lt hsmall]

/-- A quotient is infinite exactly if its exponent, or the one that a carry leaves, is past the format. -/
theorem ofRatio_eq_infinite_iff (hnum : 0 < num) {e : Int}
    (he : max minExponent (ratioLog2 num den - 52) = e) :
    ofRatio sign num den = .infinite sign ↔ maxExponent < e ∨
      e = maxExponent ∧ roundHalfEven (num * 2 ^ (-e).toNat) (den * 2 ^ e.toNat) = 2 ^ 53 := by
  have hpow : ∀ b n : Nat, Nat.pow b n = b ^ n := fun _ _ => rfl
  unfold ofRatio
  rw [if_neg hnum.ne', he]
  simp only [hpow]
  generalize roundHalfEven (num * 2 ^ (-e).toNat) (den * 2 ^ e.toNat) = rounded
  by_cases hfull : rounded = 2 ^ 53
  · rw [if_pos hfull]
    dsimp only
    by_cases hlast : maxExponent < e + 1
    · rw [if_pos hlast]
      simp only [true_iff]
      omega
    · rw [if_neg hlast]
      simp only [reduceCtorEq, false_iff]
      omega
  · rw [if_neg hfull]
    dsimp only
    by_cases hpast : maxExponent < e
    · simp [hpast]
    · rw [if_neg hpast, or_iff_right hpast]
      simp only [reduceCtorEq, hfull, and_false]

theorem roundHalfEven_full_iff (hden : 0 < den) (hlt : num < 2 ^ 53 * den) :
    roundHalfEven num den = 2 ^ 53 ↔ (2 ^ 54 - 1) * den ≤ 2 * num := by
  have hbelow : num / den < 2 ^ 53 := (Nat.div_lt_iff_lt_mul hden).mpr hlt
  have hsplit := Nat.div_add_mod' num den
  have hmod := Nat.mod_lt num hden
  by_cases hlast : num / den = 2 ^ 53 - 1
  · by_cases hup : RoundsUp num den
    · rw [roundHalfEven_of_up hup]
      rw [RoundsUp] at hup
      rw [hlast] at hsplit hup ⊢
      omega
    · rw [roundHalfEven_of_not_up hup]
      rw [RoundsUp] at hup
      rw [hlast] at hsplit hup ⊢
      omega
  · have hround := roundHalfEven_le num den
    have hfar : num / den * den ≤ (2 ^ 53 - 2) * den := Nat.mul_le_mul_right den (by omega)
    omega

theorem ofRatio_infinite_iff (sign : Bool) (hden : 0 < den) :
    ofRatio sign num den = .infinite sign ↔ (2 ^ 54 - 1) * 2 ^ 970 * den ≤ num := by
  rcases Nat.eq_zero_or_pos num with rfl | hnum
  · rw [ofRatio, if_pos rfl, zero]
    have := Nat.mul_pos (Nat.mul_pos (show 0 < 2 ^ 54 - 1 by omega) (Nat.two_pow_pos 970)) hden
    simp only [reduceCtorEq, false_iff]
    omega
  have hpos : (0 : ℚ) < den := by exact_mod_cast hden
  obtain ⟨hlow, hhigh⟩ := ratioLog2_bounds hnum hden
  rw [le_div_iff₀ hpos] at hlow
  rw [div_lt_iff₀ hpos] at hhigh
  have habove {k : Nat} (h : ratioLog2 num den + 1 ≤ k) : num < 2 ^ k * den := by
    have hmono : (2 : ℚ) ^ (ratioLog2 num den + 1) ≤ 2 ^ k := by
      rw [← zpow_natCast]
      exact zpow_le_zpow_right₀ (by norm_num) h
    exact_mod_cast hhigh.trans_le (mul_le_mul_of_nonneg_right hmono hpos.le)
  have hbelow {k : Nat} (h : (k : Int) ≤ ratioLog2 num den) : 2 ^ k * den ≤ num := by
    have hmono : (2 : ℚ) ^ k ≤ 2 ^ ratioLog2 num den := by
      rw [← zpow_natCast]
      exact zpow_le_zpow_right₀ (by norm_num) h
    exact_mod_cast (mul_le_mul_of_nonneg_right hmono hpos.le).trans hlow
  rw [Nat.mul_assoc]
  generalize hunit : 2 ^ 970 * den = unit
  have hscale {k j : Nat} (h : k = j + 970) : 2 ^ k * den = 2 ^ j * unit := by
    rw [h, pow_add, Nat.mul_assoc, hunit]
  have hunitpos : 0 < unit := by
    rw [← hunit]
    positivity
  rcases lt_trichotomy (ratioLog2 num den) 1023 with hless | hlast | hmore
  · have hlt := habove (k := 1023) (by omega)
    rw [hscale (k := 1023) (j := 53) rfl] at hlt
    rw [ofRatio_eq_infinite_iff hnum rfl, maxExponent, minExponent]
    omega
  · have hlt := habove (k := 1024) (by omega)
    rw [hscale (k := 1024) (j := 54) rfl] at hlt
    have hexponent : max minExponent (ratioLog2 num den - 52) = maxExponent := by
      rw [hlast, minExponent, maxExponent]
      rfl
    have hstep : den * 2 ^ 971 = 2 * unit := by rw [Nat.mul_comm, hscale (j := 1) rfl, pow_one]
    rw [ofRatio_eq_infinite_iff hnum hexponent, or_iff_right (lt_irrefl _), and_iff_right rfl,
      show (-maxExponent).toNat = 0 from rfl, show maxExponent.toNat = 971 from rfl, hstep, pow_zero,
      Nat.mul_one, roundHalfEven_full_iff (by omega) (by omega)]
    omega
  · have hle := hbelow (k := 1024) (by omega)
    rw [hscale (k := 1024) (j := 54) rfl] at hle
    rw [ofRatio_eq_infinite_iff hnum rfl, maxExponent, minExponent]
    omega

end Binary64
end Listing
