import HeatingPlant.Proofs.Floating.Nearest

/-!
# What an unpacked float denotes

A float taken apart is a sign, a whole number and an exponent, or something that is not finite.
This file says which extended real that is, and shows that comparing floats compares those.

## Main definitions

* `value` — the extended real that an unpacked float denotes
* `Fits` — a whole number and an exponent as binary64 keeps them
* `Tidy`, `Settled` — an unpacked float that rounding leaves behind, and one that packing keeps
* `settle` — a tidy float with its overflow turned into an infinity

## Main statements

* `compare_eq` — the comparison of tidy floats is that of their values
* `settled_unpack`, `unpack_pack` — taking apart gives settled floats, and undoes packing
-/

open Float.Model Float.Model.UnpackedFloat

namespace HeatingPlant.Floating

noncomputable section

/-- The extended real that an unpacked float denotes; zero stands for what is not a number. -/
def value : UnpackedFloat → EReal
  | .notANumber => 0
  | .infinity .positive => ⊤
  | .infinity .negative => ⊥
  | .zero _ => 0
  | .finite sign m e _ => (units (sign.apply m) e : EReal)

/-- At most 53 places, and all of them unless the last place is the finest there is. -/
def Fits (m : ℕ) (e : ℤ) : Prop := m < 2 ^ 53 ∧ -1074 ≤ e ∧ (2 ^ 52 ≤ m ∨ e = -1074)

/-- What rounding leaves behind: the exponent has no upper bound yet. -/
def Tidy : UnpackedFloat → Prop
  | .finite _ m e _ => Fits m e
  | _ => True

/-- What packing keeps. -/
def Settled : UnpackedFloat → Prop
  | .finite _ m e _ => Fits m e ∧ e ≤ 971
  | _ => True

theorem Settled.tidy {u : UnpackedFloat} (h : Settled u) : Tidy u := by
  cases u with
  | finite sign m e hm => exact h.1
  | _ => trivial

/-! ### Order -/

/-- A larger exponent outweighs every whole number that fits. -/
theorem mul_zpow_lt_of_exponent_lt {m m' : ℕ} {e e' : ℤ} (h : Fits m e) (h' : Fits m' e')
    (hlt : e < e') : (m : ℝ) * 2 ^ e < m' * 2 ^ e' := by
  obtain ⟨hm, he, -⟩ := h
  have hm' : 2 ^ 52 ≤ m' := h'.2.2.resolve_right (by omega)
  calc (m : ℝ) * 2 ^ e < 2 ^ 53 * 2 ^ e := by
        gcongr
        exact_mod_cast hm
    _ = 2 ^ 52 * 2 ^ (e + 1) := by rw [zpow_add₀ two_ne_zero]; ring
    _ ≤ m' * 2 ^ e' := by
        gcongr
        · exact_mod_cast hm'
        · exact one_le_two
        · exact hlt

/-- Exponent first, whole number second: the order of magnitudes. -/
theorem compare_magnitudes {m m' : ℕ} {e e' : ℤ} (h : Fits m e) (h' : Fits m' e') :
    (compare e e').then (compare m m') = compare ((m : ℝ) * 2 ^ e) (m' * 2 ^ e') := by
  rcases lt_trichotomy e e' with hlt | rfl | hgt
  · rw [compare_lt_iff_lt.mpr hlt, compare_lt_iff_lt.mpr (mul_zpow_lt_of_exponent_lt h h' hlt)]
    rfl
  · rw [compare_eq_iff_eq.mpr rfl]
    have hpos : (0 : ℝ) < 2 ^ e := by positivity
    rcases lt_trichotomy m m' with hlt | rfl | hgt
    · rw [compare_lt_iff_lt.mpr hlt, compare_lt_iff_lt.mpr (by gcongr)]
      rfl
    · rw [compare_eq_iff_eq.mpr rfl, compare_eq_iff_eq.mpr rfl]
      rfl
    · rw [compare_gt_iff_gt.mpr hgt, compare_gt_iff_gt.mpr (by gcongr)]
      rfl
  · rw [compare_gt_iff_gt.mpr hgt, compare_gt_iff_gt.mpr (mul_zpow_lt_of_exponent_lt h' h hgt)]
    rfl

theorem swap_compare (x y : ℝ) : (compare x y).swap = compare (-x) (-y) := by
  rcases lt_trichotomy x y with h | rfl | h
  · rw [compare_lt_iff_lt.mpr h, compare_gt_iff_gt.mpr (neg_lt_neg h)]
    rfl
  · rw [compare_eq_iff_eq.mpr rfl, compare_eq_iff_eq.mpr rfl]
    rfl
  · rw [compare_gt_iff_gt.mpr h, compare_lt_iff_lt.mpr (neg_lt_neg h)]
    rfl

theorem compare_coe (x y : ℝ) : compare (x : EReal) y = compare x y := by
  rcases lt_trichotomy x y with h | rfl | h
  · rw [compare_lt_iff_lt.mpr h, compare_lt_iff_lt.mpr (EReal.coe_lt_coe_iff.mpr h)]
  · rw [compare_eq_iff_eq.mpr rfl, compare_eq_iff_eq.mpr rfl]
  · rw [compare_gt_iff_gt.mpr h, compare_gt_iff_gt.mpr (EReal.coe_lt_coe_iff.mpr h)]

theorem value_positive_pos {m : ℕ} (hm : 0 < m) (e : ℤ) :
    0 < value (.finite .positive m e hm) := by
  have : (0 : ℝ) < m * 2 ^ e := by positivity
  simpa [value, Sign.apply] using EReal.coe_pos.mpr this

theorem value_negative_neg {m : ℕ} (hm : 0 < m) (e : ℤ) :
    value (.finite .negative m e hm) < 0 := by
  have : -((m : ℝ) * 2 ^ e) < 0 := neg_neg_of_pos (by positivity)
  simpa [value, Sign.apply] using EReal.coe_neg'.mpr this

/-- **Comparing tidy floats compares what they denote.** -/
theorem compare_eq {u v : UnpackedFloat} (hu : Tidy u) (hv : Tidy v) (hu' : u.isNaN = false)
    (hv' : v.isNaN = false) : u.compare v = some (compare (value u) (value v)) := by
  cases u with
  | notANumber => cases hu'
  | infinity s =>
      cases v with
      | notANumber => cases hv'
      | infinity s' =>
          cases s <;> cases s' <;> refine congrArg some (Eq.symm ?_)
          · exact compare_eq_iff_eq.mpr rfl
          · exact compare_lt_iff_lt.mpr bot_lt_top
          · exact compare_gt_iff_gt.mpr bot_lt_top
          · exact compare_eq_iff_eq.mpr rfl
      | zero s' =>
          cases s <;> refine congrArg some (Eq.symm ?_)
          · exact compare_lt_iff_lt.mpr EReal.bot_lt_zero
          · exact compare_gt_iff_gt.mpr EReal.zero_lt_top
      | finite s' m e hm =>
          cases s <;> refine congrArg some (Eq.symm ?_)
          · exact compare_lt_iff_lt.mpr (EReal.bot_lt_coe _)
          · exact compare_gt_iff_gt.mpr (EReal.coe_lt_top _)
  | zero s =>
      cases v with
      | notANumber => cases hv'
      | infinity s' =>
          cases s' <;> refine congrArg some (Eq.symm ?_)
          · exact compare_gt_iff_gt.mpr EReal.bot_lt_zero
          · exact compare_lt_iff_lt.mpr EReal.zero_lt_top
      | zero s' => exact congrArg some (compare_eq_iff_eq.mpr rfl).symm
      | finite s' m e hm =>
          cases s' <;> refine congrArg some (Eq.symm ?_)
          · exact compare_gt_iff_gt.mpr (value_negative_neg hm e)
          · exact compare_lt_iff_lt.mpr (value_positive_pos hm e)
  | finite s m e hm =>
      cases v with
      | notANumber => cases hv'
      | infinity s' =>
          cases s' <;> cases s <;> refine congrArg some (Eq.symm ?_)
          · exact compare_gt_iff_gt.mpr (EReal.bot_lt_coe _)
          · exact compare_gt_iff_gt.mpr (EReal.bot_lt_coe _)
          · exact compare_lt_iff_lt.mpr (EReal.coe_lt_top _)
          · exact compare_lt_iff_lt.mpr (EReal.coe_lt_top _)
      | zero s' =>
          cases s <;> refine congrArg some (Eq.symm ?_)
          · exact compare_lt_iff_lt.mpr (value_negative_neg hm e)
          · exact compare_gt_iff_gt.mpr (value_positive_pos hm e)
      | finite s' m' e' hm' =>
          -- only like signs come down to magnitudes, the negative ones in reverse
          cases s <;> cases s' <;> refine congrArg some (Eq.symm ?_)
          · rw [compare_magnitudes hu hv, swap_compare, value, value, compare_coe]
            simp [Sign.apply]
          · exact compare_lt_iff_lt.mpr
              ((value_negative_neg hm e).trans (value_positive_pos hm' e'))
          · exact compare_gt_iff_gt.mpr
              ((value_negative_neg hm' e').trans (value_positive_pos hm e))
          · rw [compare_magnitudes hu hv, value, value, compare_coe]
            simp [Sign.apply]

/-- Strictly less means a strictly smaller number. -/
theorem lt_eq {u v : UnpackedFloat} (hu : Tidy u) (hv : Tidy v) (hu' : u.isNaN = false)
    (hv' : v.isNaN = false) : u.lt v = true ↔ value u < value v := by
  rw [UnpackedFloat.lt, compare_eq hu hv hu' hv', beq_iff_eq, Option.some.injEq,
    compare_lt_iff_lt]

theorem le_eq {u v : UnpackedFloat} (hu : Tidy u) (hv : Tidy v) (hu' : u.isNaN = false)
    (hv' : v.isNaN = false) : u.le v = true ↔ value u ≤ value v := by
  rw [UnpackedFloat.le, compare_eq hu hv hu' hv', Option.any_some, ← compare_le_iff_le]
  cases compare (value u) (value v) <;> decide

theorem beq_eq {u v : UnpackedFloat} (hu : Tidy u) (hv : Tidy v) (hu' : u.isNaN = false)
    (hv' : v.isNaN = false) : u.beq v = true ↔ value u = value v := by
  rw [UnpackedFloat.beq, compare_eq hu hv hu' hv', beq_iff_eq, Option.some.injEq,
    compare_eq_iff_eq]

/-- What is not a number compares with nothing. -/
theorem compare_of_isNaN {u v : UnpackedFloat} (h : u.isNaN = true ∨ v.isNaN = true) :
    u.compare v = none := by
  rcases h with h | h
  · cases u with
    | notANumber => cases v <;> rfl
    | _ => cases h
  · cases v with
    | notANumber => cases u <;> rfl
    | _ => cases h

/-! ### Packing -/

/-- The leading place of a normal number is not stored. -/
theorem toNat_one_append (mantissa : BitVec 52) :
    (1#1 ++ mantissa).toNat = 2 ^ 52 + mantissa.toNat := by
  have h := Nat.two_pow_add_eq_or_of_lt mantissa.isLt 1
  rw [BitVec.toNat_append, Nat.shiftLeft_eq, Nat.mul_comm]
  exact h.symm.trans (by rw [Nat.mul_one])

/-- **Taking a float apart gives a settled one.** -/
theorem settled_unpack (bits : BitVec Format.binary64.numBits) :
    Settled (UnpackedFloat.unpack Format.binary64 bits) := by
  have hm : (unpackMantissa bits).toNat < 2 ^ 52 := (unpackMantissa bits).isLt
  have he : (unpackExponent bits).toNat < 2 ^ 11 := (unpackExponent bits).isLt
  have hbias : ((Format.binary64.exponentBias : ℕ) : ℤ) = 1023 := rfl
  unfold UnpackedFloat.unpack
  dsimp only
  split_ifs with hinf hnan hsub hzero
  · trivial
  · trivial
  · trivial
  · have hexp : (unpackExponent bits).toNat = 0 := congrArg BitVec.toNat hsub
    refine ⟨⟨by omega, ?_, Or.inr ?_⟩, ?_⟩ <;> rw [hexp, hbias] <;> norm_num
  · -- a normal number: the exponent field is neither all zeros nor all ones
    have h0 : (unpackExponent bits).toNat ≠ 0 := fun h => hsub (BitVec.eq_of_toNat_eq h)
    have h2047 : (unpackExponent bits).toNat ≠ 2047 := fun h => hinf (BitVec.eq_of_toNat_eq h)
    rw [Settled, Fits, toNat_one_append, hbias]
    push_cast
    omega

theorem ofBitVec_unpackSign_packComponents {spec : Format} (sign : Sign)
    (exponent : BitVec spec.exponentBits) (mantissa : BitVec spec.mantissaBitsWithoutImplicit) :
    Sign.ofBitVec (unpackSign (packComponents spec sign exponent mantissa)) = sign := by
  have h : unpackSign (packComponents spec sign exponent mantissa) = sign.toBitVec := by
    ext i hi
    obtain rfl : i = 0 := by omega
    simp [unpackSign, packComponents, BitVec.getLsbD_append, BitVec.getElem_append]
  rw [h]
  cases sign <;> rfl

theorem finite_congr {sign : Sign} {m m' : ℕ} {e e' : ℤ} (hm : 0 < m) (hm' : 0 < m')
    (h : m = m') (he : e = e') :
    UnpackedFloat.finite sign m e hm = .finite sign m' e' hm' := by
  subst h he
  rfl

/-- A normal number comes back from its stored fields. -/
theorem unpack_packComponents_normal {sign : Sign} {m : ℕ} {e : ℤ} (hm : 0 < m)
    (hfull : 2 ^ 52 ≤ m) (hlt : m < 2 ^ 53) (hge : -1074 ≤ e) (hle : e ≤ 971) :
    UnpackedFloat.unpack Format.binary64
      (packComponents Format.binary64 sign (BitVec.ofNat 11 (e + 1075).toNat) (BitVec.ofNat 52 m)) =
        .finite sign m e hm := by
  have hbias : ((Format.binary64.exponentBias : ℕ) : ℤ) = 1023 := rfl
  have hexp : (BitVec.ofNat 11 (e + 1075).toNat).toNat = (e + 1075).toNat := by
    rw [BitVec.toNat_ofNat]
    omega
  have h2047 : BitVec.ofNat 11 (e + 1075).toNat ≠ -1#11 := by
    intro h
    have h' : (e + 1075).toNat = 2047 := hexp.symm.trans (congrArg BitVec.toNat h)
    omega
  have h0 : BitVec.ofNat 11 (e + 1075).toNat ≠ 0#11 := by
    intro h
    have h' : (e + 1075).toNat = 0 := hexp.symm.trans (congrArg BitVec.toNat h)
    omega
  unfold UnpackedFloat.unpack
  simp only [unpackMantissa_packComponents, unpackExponent_packComponents,
    ofBitVec_unpackSign_packComponents, if_neg h2047, if_neg h0]
  refine finite_congr _ hm ?_ ?_
  · rw [toNat_one_append, BitVec.toNat_ofNat]
    omega
  · rw [hexp, hbias]
    omega

/-- So does a number with the finest last place. -/
theorem unpack_packComponents_finest {sign : Sign} {m : ℕ} (hm : 0 < m) (hlt : m < 2 ^ 52) :
    UnpackedFloat.unpack Format.binary64
      (packComponents Format.binary64 sign 0#11 (BitVec.ofNat 52 m)) =
        .finite sign m (-1074) hm := by
  have hmant : (BitVec.ofNat 52 m).toNat = m := by
    rw [BitVec.toNat_ofNat]
    omega
  have h0 : BitVec.ofNat 52 m ≠ 0#52 := by
    intro h
    have h' : m = 0 := hmant.symm.trans (congrArg BitVec.toNat h)
    omega
  have h2047 : (0#11 : BitVec 11) ≠ -1#11 := by decide
  unfold UnpackedFloat.unpack
  simp only [unpackMantissa_packComponents, unpackExponent_packComponents,
    ofBitVec_unpackSign_packComponents, if_neg h2047, if_true, dif_neg h0]
  exact finite_congr _ hm hmant rfl

/-- A tidy float with its overflow turned into an infinity. -/
def settle : UnpackedFloat → UnpackedFloat
  | .finite sign m e hm => if 971 < e then .infinity sign else .finite sign m e hm
  | u => u

theorem settle_of_settled {u : UnpackedFloat} (h : Settled u) : settle u = u := by
  cases u with
  | finite sign m e hm => exact if_neg h.2.not_gt
  | _ => rfl

/-- **Packing a tidy float loses nothing but an overflow.** -/
theorem unpack_pack {u : UnpackedFloat} (h : Tidy u) :
    UnpackedFloat.unpack Format.binary64 (UnpackedFloat.pack Format.binary64 u) = settle u := by
  have hinf : ∀ sign, UnpackedFloat.unpack Format.binary64 (packedInfinity Format.binary64 sign) =
      .infinity sign := by
    rintro ⟨⟩ <;> rfl
  cases u with
  | notANumber => rfl
  | infinity sign => exact hinf sign
  | zero sign => cases sign <;> rfl
  | finite sign m e hm =>
      obtain ⟨hlt, hge, hfull⟩ := h
      have hbias : ((Format.binary64.exponentBias : ℕ) : ℤ) = 1023 := rfl
      have hbiased : (e + Format.binary64.exponentBias + (52 : ℕ)).toNat = (e + 1075).toNat := by
        rw [hbias]
        omega
      unfold UnpackedFloat.pack
      dsimp only
      rw [hbiased]
      -- the packed exponent is too large exactly beyond the coarsest last place
      by_cases hover : 971 < e
      · rw [if_pos (show 2 ^ 11 ≤ (e + 1075).toNat + 1 by omega), hinf, settle, if_pos hover]
      · rw [if_neg (show ¬2 ^ 11 ≤ (e + 1075).toNat + 1 by omega), settle, if_neg hover]
        by_cases hnormal : 2 ^ 52 ≤ m
        · have hlog : m.log2 = 52 := (Nat.log2_eq_iff (by omega)).mpr ⟨hnormal, hlt⟩
          rw [hlog, if_pos (show 52 + 1 = Format.binary64.mantissaBits from rfl)]
          exact unpack_packComponents_normal hm hnormal hlt hge (by omega)
        · obtain rfl : e = -1074 := hfull.resolve_left hnormal
          have hlog : m.log2 < 52 := (Nat.log2_lt (by omega)).mpr (by omega)
          have hbits : ¬m.log2 + 1 = Format.binary64.mantissaBits := by
            rw [show Format.binary64.mantissaBits = 53 from rfl]
            omega
          rw [if_neg hbits]
          exact unpack_packComponents_finest hm (by omega)

end

end HeatingPlant.Floating
