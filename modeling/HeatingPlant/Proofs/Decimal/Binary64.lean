import HeatingPlant.Decimal.Binary64
import HeatingPlant.Proofs.Floating.Arithmetic

/-!
# The bits of a float and its number

The number behind a float is read off its bits.  Here it is found in the float taken apart, which is
what arithmetic works with, and it tells the finite floats from each other.

## Main definitions

* `Binary64.ofUnpacked` — what a float taken apart stands for

## Main statements

* `Binary64.ofFloat_eq` — both ways of taking a float apart agree
* `Binary64.exists_of_isFinite` — what stands behind a finite float
* `Binary64.eq_of_ofFloat_eq` — no two finite floats have the same number and sign
* `Binary64.ofFloat_of_denotes` — a positive number that needs no rounding stands behind one float

## Design notes

The two zeros denote the same real number, so that a float is told by its number only together with
its sign.
-/

open Float.Model Float.Model.UnpackedFloat

namespace HeatingPlant.Decimal

open Floating

/-- Whether a sign is that of the numbers below zero. -/
def isNegative : Sign → Bool
  | .positive => false
  | .negative => true

/-- What a float taken apart stands for. -/
def Binary64.ofUnpacked : UnpackedFloat → Binary64
  | .notANumber => .notANumber
  | .infinity sign => .infinite (isNegative sign)
  | .zero sign => .finite (isNegative sign) 0 (-1074)
  | .finite sign m e _ => .finite (isNegative sign) m e

section Fields

variable (bits : BitVec Format.binary64.numBits)

theorem toNat_unpackMantissa : (unpackMantissa bits).toNat = bits.toNat % 2 ^ 52 := by
  rw [unpackMantissa, BitVec.toNat_cast, BitVec.extractLsb_toNat, Nat.shiftRight_zero]
  rfl

theorem toNat_unpackExponent :
    (unpackExponent bits).toNat = bits.toNat / 2 ^ 52 % 2 ^ 11 := by
  rw [unpackExponent, BitVec.toNat_cast, BitVec.extractLsb_toNat, Nat.shiftRight_eq_div_pow]
  rfl

theorem isNegative_unpackSign :
    isNegative (Sign.ofBitVec (unpackSign bits)) = decide (2 ^ 63 ≤ bits.toNat) := by
  have hlt : bits.toNat < 2 ^ 64 := bits.isLt
  have hsign : (unpackSign bits).toNat = bits.toNat / 2 ^ 63 % 2 := by
    rw [unpackSign, BitVec.toNat_cast, BitVec.extractLsb_toNat, Nat.shiftRight_eq_div_pow]
    rfl
  have hzero : unpackSign bits = 0#1 ↔ ¬2 ^ 63 ≤ bits.toNat := by
    rw [← BitVec.toNat_inj, hsign, BitVec.toNat_zero]
    omega
  unfold Sign.ofBitVec
  split_ifs with h
  · rw [decide_eq_false (hzero.mp h)]
    rfl
  · rw [decide_eq_true (not_not.mp fun hlow => h (hzero.mpr hlow))]
    rfl

end Fields

/-- **The number behind the bits is that of the float taken apart.** -/
theorem Binary64.ofFloat_eq (x : Float) : ofFloat x = ofUnpacked x.toModel.unpack := by
  obtain ⟨bits, hbits⟩ : ∃ bits : BitVec Format.binary64.numBits,
    bits = x.toModel.toBits.toBitVec := ⟨_, rfl⟩
  have hnat : x.toBits.toNat = bits.toNat := congrArg BitVec.toNat hbits.symm
  have hunpack : x.toModel.unpack = UnpackedFloat.unpack Format.binary64 bits :=
    congrArg (UnpackedFloat.unpack Format.binary64) hbits.symm
  have hm := toNat_unpackMantissa bits
  have he := toNat_unpackExponent bits
  have hinf : unpackExponent bits = -1#11 ↔ bits.toNat / 2 ^ 52 % 2 ^ 11 = 2047 := by
    rw [← BitVec.toNat_inj, he]
    rfl
  have hsub : unpackExponent bits = 0#11 ↔ bits.toNat / 2 ^ 52 % 2 ^ 11 = 0 := by
    rw [← BitVec.toNat_inj, he]
    rfl
  have hzero : unpackMantissa bits = 0#52 ↔ bits.toNat % 2 ^ 52 = 0 := by
    rw [← BitVec.toNat_inj, hm]
    rfl
  have hbias : ((Format.binary64.exponentBias : ℕ) : ℤ) = 1023 := rfl
  unfold ofFloat
  rw [hnat, hunpack]
  unfold UnpackedFloat.unpack
  simp only [Nat.pow_eq, ← isNegative_unpackSign, ← hinf, ← hsub, ← hzero]
  split_ifs with h1 h2 h3 h4
  · rfl
  · rfl
  · rw [hzero.mp h4]
    rfl
  · rw [ofUnpacked, hm, he, hsub.mp h3, hbias]
    rfl
  · have hexp : (unpackExponent bits).toNat - ((1023 : ℤ) + (52 : ℕ)) =
        ((unpackExponent bits).toNat : ℤ) - 1075 := by
      push_cast
      ring
    rw [ofUnpacked, toNat_one_append, hm, ← he, hbias]
    exact congrArg _ hexp.symm

variable {x y : Float}

/-- **A finite float is a whole number and a power of two as binary64 keeps them, with a sign.** -/
theorem Binary64.exists_of_isFinite (h : x.isFinite = true) :
    ∃ sign m e, ofFloat x = .finite (isNegative sign) m e ∧ Fits m e ∧ e ≤ 971 ∧
      real x = withSign sign (m * 2 ^ e) := by
  have hsettled := settled_toModel x
  change x.toModel.unpack.isFinite = true at h
  rw [ofFloat_eq, real]
  cases hu : x.toModel.unpack with
  | notANumber => rw [hu] at h; cases h
  | infinity sign => rw [hu] at h; cases h
  | zero sign =>
      refine ⟨sign, 0, -1074, rfl, ⟨by norm_num, le_rfl, Or.inr rfl⟩, by norm_num, ?_⟩
      simp [withSign]
  | finite sign m e hm =>
      rw [hu] at hsettled
      exact ⟨sign, m, e, rfl, hsettled.1, hsettled.2, exact_finite sign hm⟩

/-- The bits are those of the sign, of the exponent and of the places after the first. -/
theorem Binary64.toNat_toBits {negative : Bool} {m : ℕ} {e : ℤ}
    (h : ofFloat x = .finite negative m e) :
    x.toBits.toNat = 2 ^ 63 * negative.toNat +
      if m < 2 ^ 52 then m else 2 ^ 52 * (e + 1075).toNat + (m - 2 ^ 52) := by
  have hlt : x.toBits.toNat < 2 ^ 64 := x.toBits.toNat_lt
  have hsign : decide (2 ^ 63 ≤ x.toBits.toNat) = negative →
      negative.toNat = x.toBits.toNat / 2 ^ 63 := by
    rintro rfl
    by_cases hbig : 2 ^ 63 ≤ x.toBits.toNat
    · rw [decide_eq_true hbig, Bool.toNat_true]
      omega
    · rw [decide_eq_false hbig, Bool.toNat_false]
      omega
  unfold ofFloat at h
  simp only [Nat.pow_eq] at h
  split_ifs at h with h1 h2 h3 <;> simp only [finite.injEq] at h
  · obtain ⟨hneg, rfl, rfl⟩ := h
    rw [hsign hneg, if_pos (by omega)]
    omega
  · obtain ⟨hneg, rfl, rfl⟩ := h
    rw [hsign hneg, if_neg (by omega)]
    omega

/-- The number behind a finite float is behind no other. -/
theorem Binary64.eq_of_ofFloat_eq {negative : Bool} {m : ℕ} {e : ℤ}
    (hx : ofFloat x = .finite negative m e) (hy : ofFloat y = .finite negative m e) : x = y := by
  have hbits : x.toBits.toNat = y.toBits.toNat := by rw [toNat_toBits hx, toNat_toBits hy]
  obtain ⟨⟨xbits, hxvalid⟩⟩ := x
  obtain ⟨⟨ybits, hyvalid⟩⟩ := y
  obtain rfl : xbits = ybits := UInt64.toNat_inj.mp hbits
  rfl

theorem Binary64.ofFloat_neg {negative : Bool} {m : ℕ} {e : ℤ}
    (h : ofFloat x = .finite negative m e) : ofFloat (-x) = .finite (!negative) m e := by
  rw [ofFloat_eq] at h ⊢
  rw [unpack_neg]
  cases hu : x.toModel.unpack with
  | zero sign =>
    rw [hu] at h
    cases h
    cases sign <;> rfl
  | finite sign m' e' hm =>
    rw [hu] at h
    cases h
    cases sign <;> rfl
  | _ => rw [hu] at h; cases h

/-- A number has one spelling that fits. -/
theorem fits_unique {m m' : ℕ} {e e' : ℤ} (h : Fits m e) (h' : Fits m' e')
    (heq : (m : ℝ) * 2 ^ e = m' * 2 ^ e') : m = m' ∧ e = e' := by
  rcases lt_trichotomy e e' with hlt | rfl | hgt
  · exact absurd heq (mul_zpow_lt_of_exponent_lt h h' hlt).ne
  · have hpos : (2 : ℝ) ^ e ≠ 0 := by positivity
    exact ⟨by exact_mod_cast mul_right_cancel₀ hpos heq, rfl⟩
  · exact absurd heq (mul_zpow_lt_of_exponent_lt h' h hgt).ne'

/-- **A positive number that fits stands behind the float that denotes it.** -/
theorem Binary64.ofFloat_of_denotes {m : ℕ} {e : ℤ} (h : Denotes x (m * 2 ^ e)) (hm : 0 < m)
    (hfit : Fits m e) : ofFloat x = .finite false m e := by
  obtain ⟨sign, m', e', hx, hfit', -, hreal⟩ := exists_of_isFinite h.isFinite_eq
  rw [h.real_eq] at hreal
  have hpos : (0 : ℝ) < m * 2 ^ e := by positivity
  have hnonneg : (0 : ℝ) ≤ m' * 2 ^ e' := by positivity
  cases sign with
  | positive =>
      obtain ⟨rfl, rfl⟩ := fits_unique hfit hfit' (by simpa [withSign, Sign.apply] using hreal)
      exact hx
  | negative =>
      have hneg : withSign .negative ((m' : ℝ) * 2 ^ e') = -(m' * 2 ^ e') := by
        simp [withSign, Sign.apply]
      rw [hneg] at hreal
      linarith

end HeatingPlant.Decimal
