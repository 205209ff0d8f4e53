import HeatingPlant.Proofs.Floating.Unpacked

/-!
# Rounding by shifting

A result of arithmetic arrives as a whole number with a guess at what was cut off.  It is shifted to
53 places, with two bits kept of everything shifted out, and then rounded.  This file shows that the
outcome is `nearest`.

## Main definitions

* `Describes` — what a shifted whole number and its two bits say about the exact one
* `IsNearest` — an unpacked float that stands for the rounding of a real number

## Main statements

* `isNearest_roundWithAccuracy` — shifting and rounding gives the nearest number
* `isNearest_normalize` — so does normalizing a whole number with an exponent
-/

open Float.Model Float.Model.UnpackedFloat

namespace HeatingPlant.Floating

/-- What an extended mantissa says about the exact number: its whole part, and where between two
whole numbers it lies, on either side of the middle or there. -/
def Describes : ExtendedMantissa → ℝ → Prop
  | ⟨m, false, false⟩, x => x = m
  | ⟨m, false, true⟩, x => m < x ∧ x + x < m + m + 1
  | ⟨m, true, false⟩, x => x + x = m + m + 1
  | ⟨m, true, true⟩, x => m + m + 1 < x + x ∧ x < m + 1

theorem Describes.bounds {em : ExtendedMantissa} {x : ℝ} (h : Describes em x) :
    em.mantissa ≤ x ∧ x < em.mantissa + 1 := by
  rcases em with ⟨m, _ | _, _ | _⟩ <;> simp only [Describes] at h <;> constructor <;> linarith

theorem Describes.floor {em : ExtendedMantissa} {x : ℝ} (h : Describes em x) :
    ⌊x⌋ = em.mantissa := by
  rw [Int.floor_eq_iff]
  exact_mod_cast h.bounds

/-- The two bits decide which neighbour is nearest. -/
theorem Describes.roundedMantissa {em : ExtendedMantissa} {x : ℝ} (h : Describes em x) :
    (em.roundedMantissa : ℤ) = nearestEven x := by
  have hfloor := h.floor
  -- below the middle, at it and beyond it
  rcases em with ⟨m, _ | _, _ | _⟩ <;> simp only [Describes] at h hfloor <;>
    rw [nearestEven, hfloor]
  · rw [if_pos (by push_cast; linarith)]
    rfl
  · rw [if_pos (by push_cast; linarith)]
    rfl
  · rw [if_neg (by push_cast; linarith), if_neg (by push_cast; linarith)]
    simp [ExtendedMantissa.roundedMantissa, ExtendedMantissa.accuracy, Accuracy.roundToNearestEven]
  · rw [if_neg (by push_cast; linarith), if_pos (by push_cast; linarith)]
    simp [ExtendedMantissa.roundedMantissa, ExtendedMantissa.accuracy, Accuracy.roundToNearestEven]

/-- Halving moves the last place into the first bit, and the first bit into the second. -/
theorem Describes.shiftRightOne {em : ExtendedMantissa} {x : ℝ} (h : Describes em x) :
    Describes em.shiftRightOne (x / 2) := by
  rcases em with ⟨m, round, sticky⟩
  have hm : (m : ℝ) = 2 * (m / 2 : ℕ) + (m % 2 : ℕ) := by
    exact_mod_cast (Nat.div_add_mod m 2).symm
  rcases Nat.mod_two_eq_zero_or_one m with hmod | hmod
  · have hshift : ExtendedMantissa.shiftRightOne ⟨m, round, sticky⟩ =
        ⟨m / 2, false, round || sticky⟩ := by
      simp [ExtendedMantissa.shiftRightOne, hmod]
    rw [hmod, Nat.cast_zero] at hm
    rw [hshift]
    cases round <;> cases sticky <;> simp only [Describes, Bool.or_false, Bool.or_true] at h ⊢ <;>
      first | linarith | (constructor <;> linarith)
  · have hshift : ExtendedMantissa.shiftRightOne ⟨m, round, sticky⟩ =
        ⟨m / 2, true, round || sticky⟩ := by
      simp [ExtendedMantissa.shiftRightOne, hmod]
    rw [hmod, Nat.cast_one] at hm
    rw [hshift]
    cases round <;> cases sticky <;> simp only [Describes, Bool.or_false, Bool.or_true] at h ⊢ <;>
      first | linarith | (constructor <;> linarith)

theorem Describes.shiftRight {em : ExtendedMantissa} {x : ℝ} (h : Describes em x) (k : ℕ) :
    Describes (em >>> k) (x / 2 ^ k) := by
  induction k with
  | zero =>
      rw [pow_zero, div_one]
      exact h
  | succ k ih =>
      have hstep := ih.shiftRightOne
      rwa [div_div, ← pow_succ] at hstep

/-! ### The last place -/

/-- A result can be shifted to its last place without new places being invented. -/
def CanShift (m : ℕ) (e : ℤ) : Prop := 52 ≤ m.log2 ∨ e ≤ -1074

/-- The exponent that rounding shifts to. -/
def target (m : ℕ) (e : ℤ) : ℤ := Format.binary64.targetExponent (totalExponent m e)

theorem target_eq (m : ℕ) (e : ℤ) : target m e = max (m.log2 + e - 52) (-1074) := by
  unfold target Format.targetExponent totalExponent
  rw [show Format.binary64.minExponent = -1074 from rfl,
    show (Format.binary64.mantissaBits : ℤ) = 53 from rfl]
  omega

theorem CanShift.le_target {m : ℕ} {e : ℤ} (h : CanShift m e) : e ≤ target m e := by
  rw [target_eq]
  unfold CanShift at h
  omega

/-- **The exponent shifted to is that of the last place.** -/
theorem CanShift.target_eq_lastPlace {m : ℕ} {e : ℤ} {x : ℝ}
    (h : CanShift m e) (hle : m ≤ x) (hlt : x < m + 1)
    (hx : 0 < x) : target m e = lastPlace (x * 2 ^ e) := by
  have hpos : 0 < x * 2 ^ e := by positivity
  have ht := target_eq m e
  -- the whole part alone gives the leading place, as the fraction cannot carry into another
  refine le_antisymm ?_ (lastPlace_le hpos (by omega) ?_)
  · by_cases hfinest : target m e = -1074
    · rw [hfinest]
      exact le_lastPlace _
    · have hm : m ≠ 0 := by
        rintro rfl
        unfold CanShift at h
        simp at h ht
        omega
      have hlog : (m.log2 : ℤ) + e ≤ Int.log 2 (x * 2 ^ e) := by
        refine (Int.zpow_le_iff_le_log (b := 2) one_lt_two hpos).mp ?_
        rw [Nat.cast_ofNat, zpow_add₀ two_ne_zero, zpow_natCast]
        gcongr
        refine le_trans ?_ hle
        exact_mod_cast Nat.log2_self_le hm
      unfold lastPlace
      omega
  · have hm : x < 2 ^ (m.log2 + 1) := by
      refine hlt.trans_le ?_
      exact_mod_cast Nat.lt_log2_self
    calc x * 2 ^ e < 2 ^ (m.log2 + 1) * 2 ^ e := by gcongr
      _ = 2 ^ ((m.log2 : ℤ) + 1 + e) := by
          rw [zpow_add₀ two_ne_zero, ← Nat.cast_succ, zpow_natCast]
      _ ≤ 2 ^ (target m e + 53) := zpow_le_zpow_right₀ one_le_two (by omega)

theorem shiftToTargetExponent_eq {m : ℕ} {e : ℤ} (accuracy : Accuracy) (h : CanShift m e) :
    shiftToTargetExponent Format.binary64 m e accuracy =
      (ExtendedMantissa.ofMantissaAndAccuracy m accuracy >>> (target m e - e).toNat,
        target m e) := by
  have hle := h.le_target
  have hexp : e + ((target m e - e).toNat : ℤ) = target m e := by omega
  show (_, e + ((target m e - e).toNat : ℤ)) = _
  rw [hexp]
  rfl

/-- **The first shift finds the nearest whole number of last places.** -/
theorem roundedMantissa_shift {m : ℕ} {e : ℤ} {accuracy : Accuracy} {x : ℝ}
    (hx : Describes (.ofMantissaAndAccuracy m accuracy) x) (h : CanShift m e) :
    (((ExtendedMantissa.ofMantissaAndAccuracy m accuracy >>>
        (target m e - e).toNat).roundedMantissa : ℕ) : ℤ) =
      nearestEven (x * 2 ^ e / 2 ^ target m e) := by
  have hle := h.le_target
  have hquot : x * 2 ^ e / 2 ^ target m e = x / 2 ^ (target m e - e).toNat := by
    have hexp : target m e = e + ((target m e - e).toNat : ℤ) := by omega
    conv_lhs => rw [hexp, zpow_add₀ two_ne_zero, zpow_natCast]
    field_simp
  rw [hquot]
  exact (hx.shiftRight _).roundedMantissa

/-- What is rounded to 53 places once needs at most one more shift, for a carry. -/
theorem shiftToTargetExponent_of_lt {r : ℕ} {t : ℤ} (hr : r < 2 ^ 53) (ht : -1074 ≤ t) :
    shiftToTargetExponent Format.binary64 r t .exact = (⟨r, false, false⟩, t) := by
  have hlog : r.log2 ≤ 52 := by
    rcases Nat.eq_zero_or_pos r with rfl | hpos
    · simp
    · have := (Nat.log2_lt hpos.ne').mpr hr
      omega
  have hzero : (target r t - t).toNat = 0 := by
    rw [target_eq]
    omega
  show (ExtendedMantissa.ofMantissaAndAccuracy r .exact >>> (target r t - t).toNat,
    t + ((target r t - t).toNat : ℤ)) = _
  rw [hzero, Nat.cast_zero, add_zero]
  rfl

theorem shiftToTargetExponent_carry {t : ℤ} (ht : -1074 ≤ t) :
    shiftToTargetExponent Format.binary64 (2 ^ 53) t .exact =
      (⟨2 ^ 52, false, false⟩, t + 1) := by
  have hone : (target (2 ^ 53) t - t).toNat = 1 := by
    rw [target_eq, Nat.log2_two_pow]
    omega
  show (ExtendedMantissa.ofMantissaAndAccuracy (2 ^ 53) .exact >>> (target (2 ^ 53) t - t).toNat,
    t + ((target (2 ^ 53) t - t).toNat : ℤ)) = _
  rw [hone]
  rfl

/-! ### The nearest number -/

/-- A real number with the given sign. -/
def withSign (sign : Sign) (x : ℝ) : ℝ := (sign.apply 1 : ℤ) * x

/-- An unpacked float that stands for the rounding of a real number, once overflow is settled. -/
def IsNearest (u : UnpackedFloat) (x : ℝ) : Prop :=
  Tidy u ∧ u.isNaN = false ∧ value (settle u) = nearest x

theorem isNearest_zero (sign : Sign) {x : ℝ} (h : nearest x = 0) : IsNearest (.zero sign) x :=
  ⟨trivial, rfl, h.symm⟩

/-- A whole number that fits stands for every magnitude that rounds to it. -/
theorem isNearest_finite {sign : Sign} {m : ℕ} {e : ℤ} (hm : 0 < m) {x : ℝ} (hfit : Fits m e)
    (hx : 0 ≤ x) (h : roundMagnitude x = m * 2 ^ e) :
    IsNearest (.finite sign m e hm) (withSign sign x) := by
  have hpositive : value (settle (.finite .positive m e hm)) = nearest x := by
    rw [nearest_of_nonneg hx, h]
    by_cases hover : 971 < e
    · rw [settle, if_pos hover, saturate_of_le]
      · rfl
      · have hfull : 2 ^ 52 ≤ m := hfit.2.2.resolve_right (by omega)
        calc (2 : ℝ) ^ 53 * coarsest = 2 ^ 52 * 2 ^ (972 : ℤ) := by
              rw [coarsest, show (972 : ℤ) = 971 + 1 by norm_num, zpow_add₀ two_ne_zero]
              ring
          _ ≤ (m : ℝ) * 2 ^ e := by
              gcongr
              · exact_mod_cast hfull
              · exact one_le_two
              · omega
    · rw [settle, if_neg hover, saturate_of_lt]
      · simp [value, Sign.apply]
      · have hlt : (m : ℝ) < 2 ^ 53 := by exact_mod_cast hfit.1
        calc (m : ℝ) * 2 ^ e < 2 ^ 53 * 2 ^ e := by gcongr
          _ ≤ 2 ^ 53 * coarsest := by
              unfold coarsest
              gcongr
              · exact one_le_two
              · omega
  refine ⟨hfit, rfl, ?_⟩
  cases sign with
  | positive => simpa [withSign, Sign.apply] using hpositive
  | negative =>
      have hneg : withSign .negative x = -x := by simp [withSign, Sign.apply]
      rw [hneg, nearest_neg, ← hpositive]
      unfold settle
      dsimp only
      split_ifs <;> simp [value, Sign.apply]

/-- What is rounded once is the nearest magnitude, and the second shift changes only its
spelling. -/
theorem isNearest_secondShift (sign : Sign) {r : ℕ} {t : ℤ} {x : ℝ} (hx : 0 ≤ x)
    (ht : -1074 ≤ t) (hle : r ≤ 2 ^ 53) (hfull : 2 ^ 52 ≤ r ∨ t = -1074)
    (hmag : roundMagnitude x = r * 2 ^ t) :
    IsNearest
      (if h : (shiftToTargetExponent Format.binary64 r t .exact).1.mantissa = 0 then .zero sign
        else .finite sign (shiftToTargetExponent Format.binary64 r t .exact).1.mantissa
          (shiftToTargetExponent Format.binary64 r t .exact).2 (Nat.pos_of_ne_zero h))
      (withSign sign x) := by
  rcases hle.lt_or_eq with hlt | rfl
  · simp only [shiftToTargetExponent_of_lt hlt ht]
    split_ifs with hzero
    · refine isNearest_zero sign ?_
      rw [hzero, Nat.cast_zero, zero_mul] at hmag
      have hnearest : nearest x = 0 := by rw [nearest_of_nonneg hx, hmag, saturate_zero]
      cases sign <;> simp [withSign, Sign.apply, nearest_neg, hnearest]
    · exact isNearest_finite _ ⟨hlt, ht, hfull⟩ hx hmag
  · -- the carry into a 54th place is taken back by one more shift
    simp only [shiftToTargetExponent_carry ht]
    rw [dif_neg (by norm_num)]
    refine isNearest_finite _ ⟨by norm_num, by omega, Or.inl le_rfl⟩ hx ?_
    rw [hmag, zpow_add₀ two_ne_zero]
    push_cast
    ring

/-- **Shifting and rounding gives the nearest number.** -/
theorem isNearest_roundWithAccuracy (sign : Sign) {m : ℕ} {e : ℤ}
    {accuracy : Accuracy} {x : ℝ} (hx : Describes (.ofMantissaAndAccuracy m accuracy) x)
    (h : CanShift m e) :
    IsNearest (roundWithAccuracy Format.binary64 sign m e accuracy)
      (withSign sign (x * 2 ^ e)) := by
  have hbounds := hx.bounds
  have hmant : (ExtendedMantissa.ofMantissaAndAccuracy m accuracy).mantissa = m := by
    rcases accuracy with _ | (_ | _ | _) <;> rfl
  rw [hmant] at hbounds
  have hnonneg : 0 ≤ x := le_trans (by positivity) hbounds.1
  have hround := roundedMantissa_shift hx h
  have ht : -1074 ≤ target m e := by
    rw [target_eq]
    omega
  unfold roundWithAccuracy
  rw [shiftToTargetExponent_eq accuracy h]
  dsimp only
  generalize (ExtendedMantissa.ofMantissaAndAccuracy m accuracy >>>
    (target m e - e).toNat).roundedMantissa = r at hround ⊢
  rcases hnonneg.eq_or_lt with rfl | hpos
  · -- nothing to round: the exact number is zero, which has no last place of its own
    have hr : r = 0 := by
      have h0 := nearestEven_intCast 0
      rw [zero_mul, zero_div] at hround
      rw [Int.cast_zero] at h0
      omega
    rw [hr, shiftToTargetExponent_of_lt (by norm_num) ht, dif_pos rfl]
    exact isNearest_zero sign (by simp [withSign])
  · have hplace := h.target_eq_lastPlace hbounds.1 hbounds.2 hpos
    have hX : 0 < x * 2 ^ e := by positivity
    have hmag : roundMagnitude (x * 2 ^ e) = r * 2 ^ target m e := by
      rw [roundMagnitude, ← hplace, ← hround]
      rfl
    have hle : (r : ℤ) ≤ 2 ^ 53 := by
      rw [hround, hplace]
      exact nearestEven_lastPlace_le _
    have hfull : 2 ^ 52 ≤ (r : ℤ) ∨ target m e = -1074 := by
      rcases eq_or_ne (target m e) (-1074) with hfinest | hne
      · exact Or.inr hfinest
      · left
        rw [hround, hplace]
        exact le_nearestEven_lastPlace hX (hplace ▸ hne)
    exact isNearest_secondShift sign hX.le ht (by exact_mod_cast hle)
      (hfull.imp_left (by exact_mod_cast id)) hmag

theorem log2_shiftLeft {m : ℕ} (hm : 0 < m) (k : ℕ) : (m <<< k).log2 = m.log2 + k := by
  rw [Nat.shiftLeft_eq, Nat.log2_eq_iff (by positivity)]
  constructor
  · rw [pow_add]
    exact Nat.mul_le_mul_right _ (Nat.log2_self_le hm.ne')
  · rw [show m.log2 + k + 1 = m.log2 + 1 + k by ring, pow_add]
    exact (Nat.mul_lt_mul_right (by positivity)).mpr Nat.lt_log2_self

theorem describes_exact (m : ℕ) : Describes (.ofMantissaAndAccuracy m .exact) m := rfl

/-- Making room for 53 places first lets any magnitude be rounded. -/
theorem isNearest_round (sign : Sign) {m : ℕ} (hm : 0 < m) (e : ℤ) :
    IsNearest (UnpackedFloat.round Format.binary64 sign m e) (withSign sign (m * 2 ^ e)) := by
  have ht := target_eq m e
  have hlog : (m <<< (e - target m e).toNat).log2 = m.log2 + (e - target m e).toNat :=
    log2_shiftLeft hm _
  have hshift : CanShift (m <<< (e - target m e).toNat) (e - ((e - target m e).toNat : ℤ)) := by
    unfold CanShift
    omega
  have hvalue :
    ((m <<< (e - target m e).toNat : ℕ) : ℝ) * 2 ^ (e - ((e - target m e).toNat : ℤ)) =
      m * 2 ^ e := by
    rw [Nat.shiftLeft_eq, zpow_sub₀ two_ne_zero, zpow_natCast]
    push_cast
    field_simp
  rw [← hvalue]
  exact isNearest_roundWithAccuracy sign (describes_exact _) hshift

/-- **Normalizing gives the nearest number.** -/
theorem isNearest_normalize (n e : ℤ) :
    IsNearest (UnpackedFloat.normalize Format.binary64 n e .positive) (n * 2 ^ e) := by
  unfold UnpackedFloat.normalize
  rcases lt_trichotomy n 0 with h | rfl | h
  · rw [compare_lt_iff_lt.mpr h]
    have := isNearest_round .negative (m := (-n).toNat) (by omega) e
    have hcast : (((-n).toNat : ℕ) : ℝ) = -(n : ℝ) := by
      have : (((-n).toNat : ℕ) : ℤ) = -n := by omega
      exact_mod_cast congrArg (Int.cast (R := ℝ)) this
    rw [hcast] at this
    simpa [withSign, Sign.apply] using this
  · rw [compare_eq_iff_eq.mpr rfl]
    exact isNearest_zero .positive (by simp)
  · rw [compare_gt_iff_gt.mpr h]
    have := isNearest_round .positive (m := n.toNat) (by omega) e
    have hcast : ((n.toNat : ℕ) : ℝ) = (n : ℝ) := by
      have : ((n.toNat : ℕ) : ℤ) = n := by omega
      exact_mod_cast congrArg (Int.cast (R := ℝ)) this
    rw [hcast] at this
    simpa [withSign, Sign.apply] using this

end HeatingPlant.Floating
