import HeatingPlant.Decimal.Shortest
import HeatingPlant.Proofs.Floating.Unpacked

/-!
# The fewest digits read back

The decimal chosen for a number lies among the reals that round to that number.

## Main definitions

* `RoundsTo` — the reals between the halfway points to the two neighbours of a number
* `Numeral.toReal` — the number that a decimal stands for

## Main statements

* `roundMagnitude_of_roundsTo` — all of them round to the number
* `Interval.roundsTo_of_contains` — the interval holds no others
* `roundMagnitude_shortest` — so the chosen decimal does

## Design notes

Nothing is said here about the digits being few, nor about a decimal being found among the first
seventeen: if none were, the exact decimal is taken, which rounds to the number as well.
-/

namespace HeatingPlant.Decimal

open Floating

noncomputable section

/-! ### Halfway points -/

/-- At most half away from a whole number, and less if that one is odd, it is the nearest. -/
theorem nearestEven_eq {n : ℤ} {x : ℝ} (hlow : n - 1 / 2 ≤ x) (hhigh : x ≤ n + 1 / 2)
    (htie : n % 2 = 0 ∨ n - 1 / 2 < x ∧ x < n + 1 / 2) : nearestEven x = n := by
  rcases le_or_gt (n : ℝ) x with hle | hlt
  · have hfloor : ⌊x⌋ = n := by
      rw [Int.floor_eq_iff]
      constructor <;> linarith
    unfold nearestEven
    rw [hfloor]
    split_ifs with h1 h2
    · rfl
    · linarith
    · have heven : n % 2 = 0 := htie.resolve_right fun h => h1 (by linarith [h.2])
      omega
  · have hfloor : ⌊x⌋ = n - 1 := by
      rw [Int.floor_eq_iff]
      push_cast
      constructor <;> linarith
    unfold nearestEven
    rw [hfloor]
    push_cast
    split_ifs with h1 h2
    · linarith
    · omega
    · have heven : n % 2 = 0 := htie.resolve_right fun h => h2 (by linarith [h.1])
      omega

/-- The reals between the halfway points to the neighbours of `m * 2 ^ e`, and the halfway points
themselves if `m` is even.  Below a power of two the neighbours lie twice as dense. -/
def RoundsTo (m : ℕ) (e : ℤ) (x : ℝ) : Prop :=
  let low : ℝ := units (4 * m - if m = 2 ^ 52 ∧ -1074 < e then 1 else 2 : ℕ) (e - 2)
  let high : ℝ := units (4 * m + 2 : ℕ) (e - 2)
  if m % 2 = 0 then low ≤ x ∧ x ≤ high else low < x ∧ x < high

/-- A number that fills the 53 places from `e` on has its last place there. -/
theorem lastPlace_eq {x : ℝ} {e : ℤ} (hx : 0 < x) (he : -1074 ≤ e)
    (hhigh : x < 2 ^ 53 * 2 ^ e) (hlow : 2 ^ 52 * 2 ^ e ≤ x ∨ e = -1074) : lastPlace x = e := by
  refine le_antisymm (lastPlace_le hx he ?_) ?_
  · rwa [zpow_add₀ two_ne_zero, mul_comm]
  · rcases hlow with hfull | rfl
    · have hlog : e + 52 ≤ Int.log 2 x := by
        refine (Int.zpow_le_iff_le_log (b := 2) one_lt_two hx).mp ?_
        rwa [Nat.cast_ofNat, zpow_add₀ two_ne_zero, mul_comm]
      unfold lastPlace
      omega
    · exact le_lastPlace x

/-- Near a whole number of last places a number rounds there. -/
theorem roundMagnitude_of_near {x : ℝ} {n e : ℤ} (hplace : lastPlace x = e)
    (hlow : (n - 1 / 2) * 2 ^ e ≤ x) (hhigh : x ≤ (n + 1 / 2) * 2 ^ e)
    (htie : n % 2 = 0 ∨ (n - 1 / 2) * 2 ^ e < x ∧ x < (n + 1 / 2) * 2 ^ e) :
    roundMagnitude x = n * 2 ^ e := by
  have hu : (0 : ℝ) < 2 ^ e := by positivity
  rw [← le_div_iff₀ hu] at hlow
  rw [← div_le_iff₀ hu] at hhigh
  rw [← lt_div_iff₀ hu, ← div_lt_iff₀ hu] at htie
  rw [roundMagnitude, hplace, nearestEven_eq hlow hhigh htie]

/-- The halfway points in last places: the lower one is a quarter or a half below the number. -/
theorem RoundsTo.bounds {m : ℕ} {e : ℤ} {x : ℝ} (hm : 0 < m) (h : RoundsTo m e x) :
    ∃ c : ℝ, c = (if m = 2 ^ 52 ∧ -1074 < e then 1 / 4 else 1 / 2) ∧
      (m - c) * 2 ^ e ≤ x ∧ x ≤ (m + 1 / 2) * 2 ^ e ∧
        (m % 2 = 0 ∨ (m - c) * 2 ^ e < x ∧ x < (m + 1 / 2) * 2 ^ e) := by
  have hquarter : (2 : ℝ) ^ (e - 2) = 2 ^ e / 4 := by
    rw [zpow_sub₀ two_ne_zero]
    norm_num
  have hlow : ((4 * m - if m = 2 ^ 52 ∧ -1074 < e then 1 else 2 : ℕ) : ℝ) * 2 ^ (e - 2) =
      (m - if m = 2 ^ 52 ∧ -1074 < e then 1 / 4 else 1 / 2) * 2 ^ e := by
    rw [hquarter, Nat.cast_sub (by split_ifs <;> omega)]
    push_cast
    split_ifs <;> ring
  have hhigh : ((4 * m + 2 : ℕ) : ℝ) * 2 ^ (e - 2) = (m + 1 / 2) * 2 ^ e := by
    rw [hquarter]
    push_cast
    ring
  unfold RoundsTo at h
  simp only [units_eq, Int.cast_natCast] at h
  rw [hlow, hhigh] at h
  refine ⟨_, rfl, ?_⟩
  by_cases heven : m % 2 = 0
  · rw [if_pos heven] at h
    exact ⟨h.1, h.2, Or.inl heven⟩
  · rw [if_neg heven] at h
    exact ⟨h.1.le, h.2.le, Or.inr h⟩

/-- **What lies there rounds to the number.** -/
theorem roundMagnitude_of_roundsTo {m : ℕ} {e : ℤ} {x : ℝ} (hm : 0 < m) (hfit : Fits m e)
    (h : RoundsTo m e x) : roundMagnitude x = m * 2 ^ e := by
  obtain ⟨hlt, hge, hfull⟩ := hfit
  obtain ⟨c, hc, hlow, hhigh, htie⟩ := h.bounds hm
  have hu : (0 : ℝ) < 2 ^ e := by positivity
  have hm1 : (1 : ℝ) ≤ m := by exact_mod_cast hm
  have hm53 : (m : ℝ) + 1 ≤ 2 ^ 53 := by exact_mod_cast hlt
  have hc0 : 0 < c ∧ c ≤ 1 / 2 := by
    rw [hc]
    split_ifs <;> norm_num
  have hx : 0 < x := by nlinarith
  have htop : x < 2 ^ 53 * 2 ^ e := by nlinarith
  by_cases hbelow : x < 2 ^ 52 * 2 ^ e ∧ e ≠ -1074
  · -- only a power of two has room for such an `x`, which has its last place one further down
    obtain rfl : m = 2 ^ 52 := by
      refine le_antisymm ?_ (hfull.resolve_right hbelow.2)
      by_contra hlarge
      have hm52 : (2 : ℝ) ^ 52 + 1 ≤ m := by exact_mod_cast not_le.mp hlarge
      nlinarith [hbelow.1]
    rw [if_pos ⟨rfl, by omega⟩] at hc
    have hdouble : (2 : ℝ) ^ e = 2 * 2 ^ (e - 1) := by
      rw [zpow_sub_one₀ two_ne_zero]
      ring
    have hplace : lastPlace x = e - 1 := by
      refine lastPlace_eq hx (by omega) ?_ (Or.inl ?_)
      · nlinarith [hbelow.1]
      · push_cast at hlow
        nlinarith
    have hround := @roundMagnitude_of_near x (2 ^ 53) (e - 1) hplace
      (by push_cast at hlow ⊢; nlinarith) (by push_cast; nlinarith [hbelow.1])
      (Or.inl (by norm_num))
    rw [hround, hdouble]
    push_cast
    ring
  · have hplace : lastPlace x = e := lastPlace_eq hx hge htop (by
      rcases not_and_or.mp hbelow with h1 | h1
      · exact Or.inl (not_lt.mp h1)
      · exact Or.inr (not_not.mp h1))
    have hround := @roundMagnitude_of_near x m e hplace (by push_cast; nlinarith)
      (by push_cast; exact hhigh) (htie.imp (by omega) fun h => ⟨by push_cast; nlinarith, h.2⟩)
    exact_mod_cast hround

/-! ### The interval -/

/-- A power times what clears its denominator. -/
theorem zpow_mul_pow_toNat {b : ℝ} (hb : b ≠ 0) (k : ℤ) :
    b ^ k * b ^ (-k).toNat = b ^ k.toNat := by
  obtain ⟨n, rfl | rfl⟩ := k.eq_nat_or_neg
  · simp
  · simp [hb]

/-- Multiples of a power of two compare with decimals as whole numbers on their common denominator.
-/
theorem compare_scaled (a d : ℕ) (s k : ℤ) :
    (a * 2 ^ s.toNat * 10 ^ (-k).toNat ≤ d * 10 ^ k.toNat * 2 ^ (-s).toNat ↔
        (a : ℝ) * 2 ^ s ≤ d * 10 ^ k) ∧
      (d * 10 ^ k.toNat * 2 ^ (-s).toNat ≤ a * 2 ^ s.toNat * 10 ^ (-k).toNat ↔
        (d : ℝ) * 10 ^ k ≤ a * 2 ^ s) := by
  have hunit : (0 : ℝ) < 2 ^ (-s).toNat * 10 ^ (-k).toNat := by positivity
  have hbinary : ((a * 2 ^ s.toNat * 10 ^ (-k).toNat : ℕ) : ℝ) =
      a * 2 ^ s * (2 ^ (-s).toNat * 10 ^ (-k).toNat) := by
    push_cast
    rw [← zpow_mul_pow_toNat (two_ne_zero (α := ℝ)) s]
    ring
  have hdecimal : ((d * 10 ^ k.toNat * 2 ^ (-s).toNat : ℕ) : ℝ) =
      d * 10 ^ k * (2 ^ (-s).toNat * 10 ^ (-k).toNat) := by
    push_cast
    rw [← zpow_mul_pow_toNat (by norm_num : (10 : ℝ) ≠ 0) k]
    ring
  constructor <;> rw [← Nat.cast_le (α := ℝ), hbinary, hdecimal] <;>
    exact mul_le_mul_iff_left₀ hunit

/-- **The interval of a number holds only reals that round to it.** -/
theorem Interval.roundsTo_of_contains {m d : ℕ} {e k : ℤ}
    (h : (Interval.ofBinary m e).contains d k = true) : RoundsTo m e (d * 10 ^ k) := by
  unfold Interval.contains Interval.ofBinary at h
  unfold RoundsTo
  simp only [Nat.pow_eq, decide_eq_true_eq, units_eq, Int.cast_natCast] at h ⊢
  obtain ⟨hlow, hlow'⟩ :=
    compare_scaled (4 * m - if m = 2 ^ 52 ∧ -1074 < e then 1 else 2) d (e - 2) k
  obtain ⟨hhigh, hhigh'⟩ := compare_scaled (4 * m + 2) d (e - 2) k
  by_cases heven : m % 2 = 0
  · rw [if_pos heven, Bool.and_eq_true, decide_eq_true_eq, decide_eq_true_eq] at h
    rw [if_pos heven]
    exact ⟨hlow.mp h.1, hhigh'.mp h.2⟩
  · rw [if_neg heven, Bool.and_eq_true, decide_eq_true_eq, decide_eq_true_eq] at h
    rw [if_neg heven]
    exact ⟨not_le.mp fun hle => h.1.not_ge (hlow'.mpr hle),
      not_le.mp fun hle => h.2.not_ge (hhigh.mpr hle)⟩

/-! ### The chosen decimal -/

/-- The number that a decimal stands for. -/
def Numeral.toReal (numeral : Numeral) : ℝ := numeral.digits * 10 ^ numeral.exponent

/-- Zeros at the end only move into the exponent. -/
@[simp] theorem Numeral.toReal_strip (fuel : ℕ) (numeral : Numeral) :
    (numeral.strip fuel).toReal = numeral.toReal := by
  induction fuel generalizing numeral with
  | zero => rfl
  | succ fuel ih =>
      unfold Numeral.strip
      split_ifs with h
      · rw [ih, toReal, toReal]
        have hdigits : (numeral.digits : ℝ) = (numeral.digits / 10 : ℕ) * 10 := by
          exact_mod_cast (Nat.div_mul_cancel (Nat.dvd_of_mod_eq_zero h.2)).symm
        conv_rhs => rw [hdigits]
        rw [zpow_add_one₀ (by norm_num)]
        ring
      · rfl

/-- A decimal found on a grid lies in the interval. -/
theorem Interval.contains_of_nearestOn {interval : Interval} {k : ℤ} {numeral : Numeral}
    (h : interval.nearestOn k = some numeral) :
    interval.contains numeral.digits numeral.exponent = true := by
  unfold Interval.nearestOn at h
  dsimp only at h
  split_ifs at h with hbelow habove
  · cases h
    exact (Bool.and_eq_true_iff.mp hbelow).1
  · cases h
    exact habove

/-- A number without more than `n` binary places after the point is a decimal with `n` places. -/
theorem Interval.toReal_exact (m : ℕ) {e : ℤ} {n : ℕ} (h : -(n : ℤ) ≤ e) :
    (⟨(ofBinary m e).value * Nat.pow 10 n / (ofBinary m e).denominator, -(n : ℤ)⟩ :
      Numeral).toReal = m * 2 ^ e := by
  unfold Interval.ofBinary Numeral.toReal
  simp only [Nat.pow_eq]
  have hscale := zpow_mul_pow_toNat (two_ne_zero (α := ℝ)) (e - 2)
  have hquarter : (2 : ℝ) ^ e = 4 * 2 ^ (e - 2) := by
    rw [zpow_sub₀ two_ne_zero]
    norm_num
    ring
  have hdvd : 2 ^ (-(e - 2)).toNat ∣ 4 * m * 2 ^ (e - 2).toNat * 10 ^ n := by
    have hten : 4 * m * 2 ^ (e - 2).toNat * 10 ^ n =
        2 ^ (n + 2) * (m * 2 ^ (e - 2).toNat * 5 ^ n) := by
      rw [show (10 : ℕ) = 2 * 5 by norm_num, mul_pow, pow_add]
      ring
    rw [hten]
    exact Dvd.dvd.mul_right (pow_dvd_pow 2 (by omega)) _
  rw [Nat.cast_div hdvd (by positivity), hquarter]
  push_cast
  rw [← hscale, zpow_neg, zpow_natCast]
  field_simp

/-- **The decimal chosen for a number rounds to it.** -/
theorem roundMagnitude_shortest {m : ℕ} {e : ℤ} (hm : 0 < m) (hfit : Fits m e) :
    roundMagnitude (shortest m e).toReal = m * 2 ^ e := by
  unfold shortest
  rw [if_neg hm.ne']
  dsimp only
  rw [Numeral.toReal_strip]
  cases hfound : ((List.range 17).map fun more =>
      leadingExponent (Interval.ofBinary m e).value (Interval.ofBinary m e).denominator -
        Int.ofNat more).findSome? (Interval.ofBinary m e).nearestOn with
  | some numeral =>
      obtain ⟨k, -, hk⟩ := List.exists_of_findSome?_eq_some hfound
      exact roundMagnitude_of_roundsTo hm hfit
        (Interval.roundsTo_of_contains (Interval.contains_of_nearestOn hk))
  | none =>
      have hplaces : (-1074 : ℤ) = -((1074 : ℕ) : ℤ) := rfl
      rw [Option.getD_none, hplaces, @Interval.toReal_exact m e 1074 hfit.2.1]
      exact roundMagnitude_eq_self hfit.1 hfit.2.1

end

end HeatingPlant.Decimal
