import HeatingPlant.Proofs.Floating.Rounding

/-!
# Operations on unpacked floats

Sum, difference, product and quotient of finite unpacked floats are the exact results rounded.
What happens at the infinities is a matter of signs, and read off the definitions.

## Main definitions

* `exact` — the real number that a finite unpacked float denotes

## Main statements

* `isNearest_add`, `isNearest_sub`, `isNearest_mul`, `isNearest_div` — an operation on finite
  floats answers with the float nearest to the exact result
-/

open Float.Model Float.Model.UnpackedFloat

namespace HeatingPlant.Floating

noncomputable section

/-- The real number that a finite unpacked float denotes. -/
def exact : UnpackedFloat → ℝ
  | .finite sign m e _ => units (sign.apply m) e
  | _ => 0

@[simp] theorem exact_zero (sign : Sign) : exact (.zero sign) = 0 := rfl

theorem exact_finite (sign : Sign) {m : ℕ} {e : ℤ} (hm : 0 < m) :
    exact (.finite sign m e hm) = withSign sign (m * 2 ^ e) := by
  cases sign <;> simp [exact, withSign, Sign.apply]

theorem value_eq_exact {u : UnpackedFloat} (h : u.isFinite = true) : value u = exact u := by
  cases u <;> first | rfl | cases h

theorem apply_neg (sign : Sign) (k : ℤ) : (-sign).apply k = -sign.apply k := by
  cases sign
  · exact (neg_neg k).symm
  · rfl

theorem exact_neg (u : UnpackedFloat) : exact u.neg = -exact u := by
  cases u with
  | finite sign m e hm =>
      rw [UnpackedFloat.neg, exact, exact, apply_neg, units_eq, units_eq, Int.cast_neg, neg_mul]
  | _ => exact neg_zero.symm

/-- A settled float stands for itself. -/
theorem isNearest_self {u : UnpackedFloat} (h : Settled u) (hu : u.isFinite = true) :
    IsNearest u (exact u) := by
  cases u with
  | notANumber => cases hu
  | infinity sign => cases hu
  | zero sign => exact isNearest_zero sign nearest_zero
  | finite sign m e hm =>
      obtain ⟨⟨hlt, hge, hfull⟩, hle⟩ := h
      refine ⟨⟨hlt, hge, hfull⟩, rfl, ?_⟩
      have hbound : (sign.apply (m : ℤ)).natAbs < 2 ^ 53 := by
        cases sign <;> simpa [Sign.apply] using hlt
      rw [settle_of_settled (u := .finite sign m e hm) ⟨⟨hlt, hge, hfull⟩, hle⟩]
      exact (nearest_eq_coe hbound hge hle).symm

/-! ### Sums and differences -/

theorem cast_apply (sign : Sign) (m : ℕ) : ((sign.apply m : ℤ) : ℝ) = withSign sign m := by
  cases sign <;> simp [withSign, Sign.apply]

/-- Lowering the exponent to a common one keeps the number. -/
theorem apply_shiftLeft (sign : Sign) (m : ℕ) {e t : ℤ} (h : t ≤ e) :
    ((sign.apply (m <<< (e - t).toNat : ℕ) : ℤ) : ℝ) * 2 ^ t =
      (sign.apply m : ℤ) * 2 ^ e := by
  have hexp : e = ((e - t).toNat : ℤ) + t := by omega
  have hshift : ((m <<< (e - t).toNat : ℕ) : ℝ) * 2 ^ t = m * 2 ^ e := by
    conv_rhs => rw [hexp, zpow_add₀ two_ne_zero, zpow_natCast]
    rw [Nat.shiftLeft_eq]
    push_cast
    ring
  rw [cast_apply, cast_apply, withSign, withSign, mul_assoc, mul_assoc, hshift]

/-- **The sum of finite floats is the exact sum rounded.** -/
theorem isNearest_add {u v : UnpackedFloat} (hu : Settled u) (hv : Settled v)
    (hu' : u.isFinite = true) (hv' : v.isFinite = true) :
    IsNearest (UnpackedFloat.add Format.binary64 u v) (exact u + exact v) := by
  cases u with
  | notANumber => cases hu'
  | infinity sign => cases hu'
  | zero sign =>
      cases v with
      | notANumber => cases hv'
      | infinity sign' => cases hv'
      | zero sign' =>
          rw [exact_zero, exact_zero, add_zero]
          unfold UnpackedFloat.add
          dsimp only
          split_ifs <;> exact isNearest_zero _ nearest_zero
      | finite sign' m e hm =>
          have h := isNearest_self hv hv'
          rw [← zero_add (exact _)] at h
          exact h
  | finite sign m e hm =>
      cases v with
      | notANumber => cases hv'
      | infinity sign' => cases hv'
      | zero sign' =>
          have h := isNearest_self hu hu'
          rw [← add_zero (exact _)] at h
          exact h
      | finite sign' m' e' hm' =>
          -- on the smaller exponent the sum of the whole numbers is exact, and rounded once
          have h := isNearest_normalize
            (sign.apply (m <<< (e - min e e').toNat : ℕ) +
              sign'.apply (m' <<< (e' - min e e').toNat : ℕ)) (min e e')
          rw [Int.cast_add, add_mul, apply_shiftLeft sign m (min_le_left e e'),
            apply_shiftLeft sign' m' (min_le_right e e')] at h
          exact h

/-- A difference is the sum with the sign of what it takes off turned. -/
theorem unpackedSub_eq (u v : UnpackedFloat) :
    UnpackedFloat.sub Format.binary64 u v = UnpackedFloat.add Format.binary64 u v.neg := by
  cases u with
  | finite sign m e hm =>
      cases v with
      | finite sign' m' e' hm' =>
          simp only [UnpackedFloat.neg, UnpackedFloat.sub, UnpackedFloat.add, apply_neg,
            sub_eq_add_neg]
      | _ => rfl
  | _ => cases v <;> rfl

theorem Settled.neg {v : UnpackedFloat} (h : Settled v) : Settled v.neg := by
  cases v <;> exact h

/-- **The difference of finite floats is the exact difference rounded.** -/
theorem isNearest_sub {u v : UnpackedFloat} (hu : Settled u) (hv : Settled v)
    (hu' : u.isFinite = true) (hv' : v.isFinite = true) :
    IsNearest (UnpackedFloat.sub Format.binary64 u v) (exact u - exact v) := by
  have hneg : v.neg.isFinite = true := by
    cases v <;> exact hv'
  rw [unpackedSub_eq, sub_eq_add_neg, ← exact_neg]
  exact isNearest_add hu hv.neg hu' hneg

/-! ### Products and quotients -/

theorem withSign_mul (sign sign' : Sign) (x y : ℝ) :
    withSign (sign * sign') (x * y) = withSign sign x * withSign sign' y := by
  have happly : (sign * sign').apply 1 = sign.apply 1 * sign'.apply 1 := by
    cases sign <;> cases sign' <;> rfl
  rw [withSign, withSign, withSign, happly]
  push_cast
  ring

theorem Fits.canShift_mul {m m' : ℕ} {e e' : ℤ} (hm : 0 < m) (hm' : 0 < m') (h : Fits m e)
    (h' : Fits m' e') : CanShift (m * m') (e + e') := by
  have hpos : m * m' ≠ 0 := (Nat.mul_pos hm hm').ne'
  rcases h.2.2 with hfull | rfl
  · exact Or.inl ((Nat.le_log2 hpos).mpr (hfull.trans (Nat.le_mul_of_pos_right m hm')))
  · rcases h'.2.2 with hfull | rfl
    · exact Or.inl ((Nat.le_log2 hpos).mpr (hfull.trans (Nat.le_mul_of_pos_left m' hm)))
    · exact Or.inr (by norm_num)

/-- **The product of finite floats is the exact product rounded.** -/
theorem isNearest_mul {u v : UnpackedFloat} (hu : Settled u) (hv : Settled v)
    (hu' : u.isFinite = true) (hv' : v.isFinite = true) :
    IsNearest (UnpackedFloat.mul Format.binary64 u v) (exact u * exact v) := by
  cases u with
  | notANumber => cases hu'
  | infinity sign => cases hu'
  | zero sign =>
      rw [exact_zero, zero_mul]
      cases v with
      | notANumber => cases hv'
      | infinity sign' => cases hv'
      | _ => exact isNearest_zero _ nearest_zero
  | finite sign m e hm =>
      cases v with
      | notANumber => cases hv'
      | infinity sign' => cases hv'
      | zero sign' =>
          rw [exact_zero, mul_zero]
          exact isNearest_zero _ nearest_zero
      | finite sign' m' e' hm' =>
          -- the product of two full numbers has places enough to be cut down to 53
          have h := isNearest_roundWithAccuracy (sign * sign') (describes_exact (m * m'))
            (hu.1.canShift_mul hm hm' hv.1)
          have hprod : ((m * m' : ℕ) : ℝ) * 2 ^ (e + e') = m * 2 ^ e * (m' * 2 ^ e') := by
            rw [zpow_add₀ two_ne_zero]
            push_cast
            ring
          rw [hprod, withSign_mul, ← exact_finite sign hm, ← exact_finite sign' hm'] at h
          exact h

/-- The accuracy of a fraction says where it lies. -/
theorem describes_accuracyOfFraction (n : ℕ) {d : ℕ} (hd : 0 < d) :
    Describes (.ofMantissaAndAccuracy (n / d) (accuracyOfFraction (n % d) d)) (n / d) := by
  have hlt : n % d < d := Nat.mod_lt n hd
  have hsplit : (n : ℝ) / d = (n / d : ℕ) + (n % d : ℕ) / d := by
    have h : (n : ℝ) = d * (n / d : ℕ) + (n % d : ℕ) := by
      exact_mod_cast (Nat.div_add_mod n d).symm
    have hd' : (d : ℝ) ≠ 0 := by positivity
    field_simp
    linarith
  have hfrac : ((n % d : ℕ) : ℝ) / d < 1 := by
    rw [div_lt_one (by positivity)]
    exact_mod_cast hlt
  rw [hsplit]
  unfold accuracyOfFraction
  split_ifs with hzero
  · rw [hzero, Nat.cast_zero, zero_div, add_zero]
    exact describes_exact _
  · have hpos : 0 < ((n % d : ℕ) : ℝ) / d := by
      have : 0 < n % d := Nat.pos_of_ne_zero hzero
      positivity
    rcases lt_trichotomy (2 * (n % d)) d with h | h | h
    · have hhalf : ((n % d : ℕ) : ℝ) / d < 1 / 2 := by
        rw [div_lt_div_iff₀ (by positivity) two_pos, mul_comm, one_mul]
        exact_mod_cast h
      rw [compare_lt_iff_lt.mpr h]
      exact ⟨by linarith, by linarith⟩
    · have hhalf : ((n % d : ℕ) : ℝ) / d = 1 / 2 := by
        rw [div_eq_div_iff (by positivity) two_ne_zero, mul_comm, one_mul]
        exact_mod_cast h
      rw [compare_eq_iff_eq.mpr h, hhalf]
      show ((n / d : ℕ) + 1 / 2 : ℝ) + ((n / d : ℕ) + 1 / 2) =
        (n / d : ℕ) + (n / d : ℕ) + 1
      ring
    · have hhalf : 1 / 2 < ((n % d : ℕ) : ℝ) / d := by
        rw [div_lt_div_iff₀ two_pos (by positivity), one_mul, mul_comm]
        exact_mod_cast h
      rw [compare_gt_iff_gt.mpr h]
      exact ⟨by linarith, by linarith⟩

/-- Long division goes on until the quotient has its 53 places. -/
theorem canShift_divCore {m m' : ℕ} (hm : 0 < m) (hm' : 0 < m') (e e' : ℤ) :
    CanShift (divCore Format.binary64 m e m' e').1 (divCore Format.binary64 m e m' e').2.1 := by
  have hq : (divCore Format.binary64 m e m' e').1 =
      m <<< (e - e' - (divCore Format.binary64 m e m' e').2.1).toNat / m' := rfl
  have ht : (divCore Format.binary64 m e m' e').2.1 =
      min (e - e') (max (m.log2 + 1 + e - (m'.log2 + 1 + e') - 53) (-1074)) := rfl
  rw [hq]
  generalize (divCore Format.binary64 m e m' e').2.1 = t at ht ⊢
  rcases le_or_gt t (-1074) with hfinest | hcoarse
  · exact Or.inr hfinest
  · left
    -- the dividend was shifted until it is 53 places longer than the divisor
    have hlog : m'.log2 + 1 + 52 ≤ m.log2 + (e - e' - t).toNat := by omega
    have hquot : 2 ^ 52 ≤ m <<< (e - e' - t).toNat / m' := by
      rw [Nat.le_div_iff_mul_le hm', Nat.shiftLeft_eq]
      calc 2 ^ 52 * m' ≤ 2 ^ 52 * 2 ^ (m'.log2 + 1) :=
            Nat.mul_le_mul_left _ Nat.lt_log2_self.le
        _ = 2 ^ (m'.log2 + 1 + 52) := by rw [← pow_add, add_comm]
        _ ≤ 2 ^ (m.log2 + (e - e' - t).toNat) := Nat.pow_le_pow_right two_pos hlog
        _ = 2 ^ m.log2 * 2 ^ (e - e' - t).toNat := pow_add _ _ _
        _ ≤ m * 2 ^ (e - e' - t).toNat := Nat.mul_le_mul_right _ (Nat.log2_self_le hm.ne')
    exact (Nat.le_log2 (by omega)).mpr hquot

theorem withSign_div (sign sign' : Sign) (x y : ℝ) :
    withSign (sign / sign') (x / y) = withSign sign x / withSign sign' y := by
  have happly : (sign / sign').apply 1 = sign.apply 1 * sign'.apply 1 := by
    cases sign <;> cases sign' <;> rfl
  rw [withSign, withSign, withSign, happly]
  cases sign' <;> simp only [Sign.apply] <;> push_cast <;> ring

/-- **The quotient of finite floats is the exact quotient rounded.** -/
theorem isNearest_div {u v : UnpackedFloat} (hu' : u.isFinite = true) (hv' : v.isFinite = true)
    (hv0 : exact v ≠ 0) :
    IsNearest (UnpackedFloat.div Format.binary64 u v) (exact u / exact v) := by
  cases v with
  | notANumber => cases hv'
  | infinity sign' => cases hv'
  | zero sign' => exact absurd rfl hv0
  | finite sign' m' e' hm' =>
      cases u with
      | notANumber => cases hu'
      | infinity sign => cases hu'
      | zero sign =>
          rw [exact_zero, zero_div]
          exact isNearest_zero _ nearest_zero
      | finite sign m e hm =>
          -- the remainder of the division decides the accuracy, so that nothing is rounded twice
          have ht : (divCore Format.binary64 m e m' e').2.1 ≤ e - e' := min_le_left _ _
          have h := isNearest_roundWithAccuracy (sign / sign')
            (describes_accuracyOfFraction
              (m <<< (e - e' - (divCore Format.binary64 m e m' e').2.1).toNat) hm')
            (canShift_divCore hm hm' e e')
          have hquot : (m <<< (e - e' - (divCore Format.binary64 m e m' e').2.1).toNat : ℕ) /
              (m' : ℝ) * 2 ^ (divCore Format.binary64 m e m' e').2.1 =
                m * 2 ^ e / (m' * 2 ^ e') := by
            have hshift := apply_shiftLeft .positive m ht
            simp only [Sign.apply, Int.cast_natCast] at hshift
            rw [div_mul_eq_mul_div, hshift, zpow_sub₀ two_ne_zero]
            field_simp
          rw [hquot, withSign_div, ← exact_finite sign hm, ← exact_finite sign' hm'] at h
          exact h

end

end HeatingPlant.Floating
