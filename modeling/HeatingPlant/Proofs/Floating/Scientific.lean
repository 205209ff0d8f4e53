import HeatingPlant.Proofs.Floating.Arithmetic

/-!
# Reading a decimal

A whole number times a power of ten is read as the nearest float, whatever the size of either.

## Main statements

* `nearest_eq_top`, `nearest_eq_zero` — what is too large or too small to be told from an
  infinity or from zero
* `rounds_ofScientific` — reading a decimal rounds it once

## Design notes

There are three ways of reading: by one operation on floats where the digits and the power of ten
are floats themselves, by long multiplication or division, and not at all where the power alone
decides.
-/

open Float.Model Float.Model.UnpackedFloat

namespace HeatingPlant.Floating

noncomputable section

/-! ### Beyond the range -/

/-- A number that the range does not reach is rounded to the infinity. -/
theorem nearest_eq_top {x : ℝ} (h : 2 ^ 53 * coarsest ≤ x) : nearest x = ⊤ := by
  have hc := coarsest_pos
  have hfull : (2 : ℝ) ^ 53 * coarsest = ((2 ^ 52 : ℕ) : ℝ) * 2 ^ (972 : ℤ) := by
    rw [coarsest, show (972 : ℤ) = 971 + 1 by norm_num, zpow_add₀ two_ne_zero]
    push_cast
    ring
  have hself : roundMagnitude (2 ^ 53 * coarsest) = 2 ^ 53 * coarsest := by
    rw [hfull]
    exact roundMagnitude_eq_self (by norm_num) (by norm_num)
  rw [nearest_of_nonneg (le_trans (by positivity) h)]
  refine saturate_of_le (hself.symm.le.trans ?_)
  exact roundMagnitude_mono (by positivity) h

/-- A magnitude below half of the finest last place is rounded to zero. -/
theorem nearest_eq_zero {x : ℝ} (hx : 0 ≤ x) (h : x < 2 ^ (-1075 : ℤ)) : nearest x = 0 := by
  rcases hx.eq_or_lt with rfl | hpos
  · exact nearest_zero
  have hplace : lastPlace x = -1074 := by
    refine le_antisymm (lastPlace_le hpos le_rfl (h.trans ?_)) (le_lastPlace x)
    exact zpow_lt_zpow_right₀ one_lt_two (by norm_num)
  have hhalf : x / 2 ^ (-1074 : ℤ) < ((1 : ℤ) : ℝ) - 1 / 2 := by
    rw [div_lt_iff₀ (by positivity)]
    calc x < 2 ^ (-1075 : ℤ) := h
      _ = (((1 : ℤ) : ℝ) - 1 / 2) * 2 ^ (-1074 : ℤ) := by
        rw [show (-1075 : ℤ) = -1 + -1074 by norm_num, zpow_add₀ two_ne_zero]
        norm_num
  have hlow : 0 ≤ nearestEven (x / 2 ^ (-1074 : ℤ)) := by
    refine le_nearestEven ?_
    rw [Int.cast_zero]
    positivity
  have hzero : nearestEven (x / 2 ^ (-1074 : ℤ)) = 0 := by
    have := nearestEven_lt hhalf
    omega
  rw [nearest_of_nonneg hx, roundMagnitude, hplace, hzero, Int.cast_zero, zero_mul, saturate_zero]

/-! ### Long multiplication and division -/

theorem withSign_positive (x : ℝ) : withSign .positive x = x := by
  simp [withSign, Sign.apply]

/-- **Multiplying or dividing by a power of ten gives the nearest number.** -/
theorem isNearest_ofScientific (m : ℕ) (e : ℤ) :
    IsNearest (UnpackedFloat.ofScientific Format.binary64 m e) (m * 10 ^ e) := by
  unfold UnpackedFloat.ofScientific
  have hbits : Format.binary64.exponentBits = 11 := rfl
  rw [hbits]
  split_ifs with hzero hlarge hsmall hwhole
  · rw [hzero, Nat.cast_zero, zero_mul]
    exact isNearest_zero _ nearest_zero
  · -- the power alone is beyond the range
    refine ⟨trivial, rfl, Eq.symm (nearest_eq_top ?_)⟩
    have hm : (1 : ℝ) ≤ m := by exact_mod_cast Nat.pos_of_ne_zero hzero
    calc (2 : ℝ) ^ 53 * coarsest = 2 ^ (1024 : ℤ) := by
          rw [coarsest, ← zpow_natCast, ← zpow_add₀ two_ne_zero]
          rfl
      _ ≤ 2 ^ e := zpow_le_zpow_right₀ one_le_two (by omega)
      _ ≤ 10 ^ e := by
          obtain ⟨k, rfl⟩ := Int.eq_ofNat_of_zero_le (show 0 ≤ e by omega)
          simp only [zpow_natCast]
          gcongr
          norm_num
      _ ≤ m * 10 ^ e := le_mul_of_one_le_left (by positivity) hm
  · -- the power outweighs all digits
    refine isNearest_zero _ (nearest_eq_zero (by positivity) ?_)
    obtain ⟨k, hk⟩ := Int.eq_ofNat_of_zero_le (show 0 ≤ -e by omega)
    have hm : (m : ℝ) < 2 ^ ((m.log2 : ℤ) + 1) := by
      rw [← Nat.cast_succ, zpow_natCast]
      exact_mod_cast Nat.lt_log2_self
    calc (m : ℝ) * 10 ^ e < 2 ^ ((m.log2 : ℤ) + 1) * 10 ^ e := by gcongr
      _ ≤ 2 ^ ((m.log2 : ℤ) + 1) * 2 ^ e := by
          obtain rfl : e = -(k : ℤ) := by omega
          rw [zpow_neg, zpow_neg, zpow_natCast, zpow_natCast]
          gcongr
          norm_num
      _ = 2 ^ ((m.log2 : ℤ) + 1 + e) := (zpow_add₀ two_ne_zero _ _).symm
      _ ≤ 2 ^ (-1075 : ℤ) := zpow_le_zpow_right₀ one_le_two (by omega)
  · -- the product has places enough to be cut down to 53
    obtain ⟨k, rfl⟩ := Int.eq_ofNat_of_zero_le hwhole
    have hm : 0 < m := Nat.pos_of_ne_zero hzero
    have hfull : 2 ^ 52 ≤ (m <<< 53) * 10 ^ k := by
      rw [Nat.shiftLeft_eq]
      calc 2 ^ 52 ≤ 1 * 2 ^ 53 * 1 := by norm_num
        _ ≤ m * 2 ^ 53 * 10 ^ k := by
          gcongr <;> first | omega | exact Nat.one_le_pow _ _ (by norm_num)
    have hshift : CanShift ((m <<< 53) * 10 ^ k) (-53 + 0) :=
      Or.inl ((Nat.le_log2 (by omega)).mpr hfull)
    have h := isNearest_roundWithAccuracy .positive (describes_exact _) hshift
    have hvalue :
      (((m <<< 53) * 10 ^ k : ℕ) : ℝ) * 2 ^ (-53 + 0 : ℤ) = m * 10 ^ (k : ℤ) := by
      rw [Nat.shiftLeft_eq]
      push_cast
      rw [zpow_natCast]
      norm_num
      ring
    rw [hvalue, withSign_positive] at h
    exact h
  · obtain ⟨k, rfl⟩ : ∃ k : ℕ, e = -(k : ℤ) := ⟨(-e).toNat, by omega⟩
    have hm : 0 < m := Nat.pos_of_ne_zero hzero
    have hpow : 0 < 10 ^ (-(-(k : ℤ))).toNat := by positivity
    have hdigits : exact (.finite .positive m 0 hm) = m := by
      rw [exact_finite, withSign_positive, zpow_zero, mul_one]
    have hunit : exact (.finite .positive (10 ^ (-(-(k : ℤ))).toNat) 0 hpow) = 10 ^ k := by
      rw [exact_finite, withSign_positive, zpow_zero, mul_one, neg_neg, Int.toNat_natCast]
      push_cast
      rfl
    have h := @isNearest_div (.finite .positive m 0 hm) (.finite .positive _ 0 hpow) rfl rfl
      (by rw [hunit]; positivity)
    rw [hdigits, hunit, div_eq_mul_inv, ← zpow_natCast, ← zpow_neg] at h
    exact h

/-! ### Floats as powers of ten -/

/-- The powers of ten up to the twenty-second are floats. -/
theorem denotes_powerOfTen (k : ℕ) (hk : k < 23) :
    Denotes (Float.exactlyRepresentablePowersOfTen[k]) (10 ^ k) := by
  have htable : ∀ k : Fin 23,
      Float.exactlyRepresentablePowersOfTen[k] = .ofModel (.ofNat (10 ^ k.val)) := by
    decide +kernel
  have hround := rounds_ofNat (10 ^ k)
  rw [← htable ⟨k, hk⟩, Nat.cast_pow, Nat.cast_ofNat] at hround
  refine hround.denotes ?_
  -- five to that power fits the places, and the factors of two go into the exponent
  have hfive : 5 ^ k < 2 ^ 53 :=
    (Nat.pow_le_pow_right (by norm_num) (Nat.le_of_lt_succ hk)).trans_lt (by norm_num)
  have hten : (10 : ℝ) ^ k = ((5 ^ k : ℕ) : ℤ) * 2 ^ (k : ℤ) := by
    rw [show (10 : ℝ) = 5 * 2 by norm_num, mul_pow, zpow_natCast]
    push_cast
    rfl
  rw [hten]
  exact nearest_eq_coe (by simpa using hfive) (by omega) (by omega)

/-- **Reading a decimal rounds it once.** -/
theorem rounds_ofScientific (m : ℕ) (below : Bool) (k : ℕ) :
    Rounds (Float.ofScientific m below k) (m * 10 ^ (if below then -(k : ℤ) else k)) := by
  unfold Float.ofScientific
  split_ifs with hfast hbelow hbelow
  · have hm := denotes_toFloat hfast.1
    have hpow := denotes_powerOfTen k (by omega)
    have h := rounds_div hm.isFinite_eq hpow.isFinite_eq (by rw [hpow.real_eq]; positivity)
    rw [hm.real_eq, hpow.real_eq, div_eq_mul_inv, ← zpow_natCast, ← zpow_neg] at h
    exact h
  · have hm := denotes_toFloat hfast.1
    have hpow := denotes_powerOfTen k (by omega)
    have h := rounds_mul hm.isFinite_eq hpow.isFinite_eq
    rw [hm.real_eq, hpow.real_eq, ← zpow_natCast] at h
    exact h
  · have hneg : Int.negOfNat k = -(k : ℤ) := Int.negOfNat_eq
    simp only [hneg]
    exact rounds_pack (isNearest_ofScientific m _)
  · exact rounds_pack (isNearest_ofScientific m _)

end

end HeatingPlant.Floating
