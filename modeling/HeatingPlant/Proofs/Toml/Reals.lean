import HeatingPlant.Proofs.Decimal.Binary64
import HeatingPlant.Proofs.Decimal.Shortest
import HeatingPlant.Proofs.Floating.Scientific
import HeatingPlant.Proofs.Toml.Bare

/-!
# Floats read back

A finite float is written with the fewest digits that tell it from its neighbours, and read as that
very float, the sign of zero included.

## Main statements

* `ofFloat_ofScientific` — a decimal that rounds to a magnitude is read as it
* `Number.toFloat?_pointed` — the number written for a float is read as the float
-/

namespace HeatingPlant.Toml

open Decimal Floating

/-- **A decimal that rounds to a float's magnitude is read as it.** -/
theorem ofFloat_ofScientific {m d : ℕ} {e k : ℤ} (hm : 0 < m) (hfit : Fits m e)
    (hle : e ≤ 971) (hround : roundMagnitude (d * 10 ^ k) = m * 2 ^ e) :
    (Float.ofScientific d (decide (k < 0)) k.natAbs).isFinite = true ∧
      Binary64.ofFloat (Float.ofScientific d (decide (k < 0)) k.natAbs) = .finite false m e := by
  have hexponent : (if decide (k < 0) = true then -(k.natAbs : ℤ) else k.natAbs) = k := by
    split_ifs with h <;> simp only [decide_eq_true_eq] at h <;> omega
  have hrounds := rounds_ofScientific d (decide (k < 0)) k.natAbs
  rw [hexponent] at hrounds
  have hnearest : nearest (d * 10 ^ k) = ((m * 2 ^ e : ℝ) : EReal) := by
    have hself := @nearest_eq_coe m e (by simpa using hfit.1) hfit.2.1 hle
    rw [Int.cast_natCast, nearest_of_nonneg (by positivity),
      roundMagnitude_eq_self hfit.1 hfit.2.1] at hself
    rw [nearest_of_nonneg (by positivity), hround, hself]
  have hdenotes := hrounds.denotes_nearest hnearest
  exact ⟨hdenotes.isFinite_eq, Binary64.ofFloat_of_denotes hdenotes hm hfit⟩

namespace Number

/-- A magnitude with its sign is the float that has this magnitude and this sign. -/
theorem toFloat?_decimal {x : Float} {negative : Bool} {m digits : ℕ} {e exponent : ℤ}
    (hx : Binary64.ofFloat x = .finite negative m e)
    (hmagnitude :
      (Float.ofScientific digits (decide (exponent < 0)) exponent.natAbs).isFinite = true ∧
      Binary64.ofFloat (Float.ofScientific digits (decide (exponent < 0)) exponent.natAbs) =
        .finite false m e) :
    (decimal negative digits exponent).toFloat? = some x := by
  rw [toFloat?, if_pos hmagnitude.1]
  refine congrArg some ?_
  cases negative with
  | false => exact Binary64.eq_of_ofFloat_eq hmagnitude.2 hx
  | true => exact Binary64.eq_of_ofFloat_eq (Binary64.ofFloat_neg hmagnitude.2) hx

/-- The number that a decimal stands for, apart from its sign, does not depend on how it is written.
-/
theorem pointed_decimal (negative : Bool) (digits : ℕ) (exponent : ℤ) :
    ∃ digits' exponent', (decimal negative digits exponent).pointed =
        decimal negative digits' exponent' ∧
      (digits' : ℝ) * 10 ^ exponent' = digits * 10 ^ exponent := by
  rw [pointed]
  split_ifs with h
  · obtain ⟨k, rfl⟩ := Int.eq_ofNat_of_zero_le h
    refine ⟨_, _, rfl, ?_⟩
    rw [Int.toNat_natCast, pow_succ, zpow_natCast]
    push_cast
    rw [zpow_neg_one]
    ring
  · exact ⟨_, _, rfl, rfl⟩

/-- **The number written for a finite float is read as that float.** -/
theorem toFloat?_pointed {x : Float} (h : x.isFinite = true) :
    (ofFloat x).pointed.toFloat? = some x := by
  obtain ⟨sign, m, e, hx, hfit, hle, -⟩ := Binary64.exists_of_isFinite h
  rw [ofFloat, hx]
  dsimp only
  rcases Nat.eq_zero_or_pos m with rfl | hm
  · -- zero is written with one digit after its point
    obtain rfl : e = -1074 := hfit.2.2.resolve_left (by norm_num)
    exact toFloat?_decimal hx (by decide +kernel)
  · obtain ⟨digits, exponent, hpointed, hvalue⟩ :=
      pointed_decimal (isNegative sign) (shortest m e).digits (shortest m e).exponent
    have hround : roundMagnitude (digits * 10 ^ exponent) = m * 2 ^ e :=
      (congrArg roundMagnitude hvalue).trans (roundMagnitude_shortest hm hfit)
    rw [hpointed]
    exact toFloat?_decimal hx (ofFloat_ofScientific hm hfit hle hround)

end Number

/-- The number written for a finite float is one that reads back. -/
theorem Scalar.writable_ofFloat {x : Float} (h : x.isFinite = true) :
    (Scalar.real (.ofFloat x)).Writable := by
  obtain ⟨sign, m, e, hx, hfit, -⟩ := Binary64.exists_of_isFinite h
  rw [Number.ofFloat, hx]
  rcases Nat.eq_zero_or_pos m with rfl | hm
  · exact Or.inr le_rfl
  · refine Or.inl fun hzero => ?_
    have hround := roundMagnitude_shortest hm hfit
    rw [Numeral.toReal, hzero, Nat.cast_zero, zero_mul, roundMagnitude_zero] at hround
    exact (show (0 : ℝ) < m * 2 ^ e by positivity).ne hround

end HeatingPlant.Toml
