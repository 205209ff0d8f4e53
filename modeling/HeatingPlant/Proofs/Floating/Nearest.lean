import Mathlib

/-!
# Rounding a real number to binary64

Which number a binary64 operation answers with, said without any bits: the nearest multiple of the
last place, ties to the even one, and an infinity beyond the range.

## Main definitions

* `nearestEven` — the nearest whole number
* `units` — a whole number of units of a binary place
* `lastPlace` — the exponent of the last place of a magnitude
* `roundMagnitude` — the nearest magnitude with 53 binary places, whatever its exponent
* `nearest` — the nearest binary64 number, as an extended real

## Main statements

* `nearest_mono` — rounding keeps the order
* `nearest_eq_coe` — a number of 53 binary places within the range stays what it is
* `nearest_lt_top`, `bot_lt_nearest` — when rounding stays finite

## Design notes

Everything that the plant does with quantities is argued from these three statements; no proof
about the plant looks at how the even neighbour is found.
-/

namespace HeatingPlant.Floating

noncomputable section

/-- The whole number nearest to `x`; halfway between two, the even one. -/
def nearestEven (x : ℝ) : ℤ :=
  if x - ⌊x⌋ < 1 / 2 then ⌊x⌋
  else if 1 / 2 < x - ⌊x⌋ then ⌊x⌋ + 1
  else ⌊x⌋ + ⌊x⌋ % 2

theorem floor_le_nearestEven (x : ℝ) : ⌊x⌋ ≤ nearestEven x := by
  unfold nearestEven
  split_ifs <;> omega

theorem nearestEven_le_floor_add_one (x : ℝ) : nearestEven x ≤ ⌊x⌋ + 1 := by
  unfold nearestEven
  split_ifs <;> omega

@[simp] theorem nearestEven_intCast (n : ℤ) : nearestEven n = n := by
  simp [nearestEven]

/-- Within one interval between whole numbers the answer jumps once, upwards. -/
theorem nearestEven_mono {x y : ℝ} (h : x ≤ y) : nearestEven x ≤ nearestEven y := by
  rcases (Int.floor_mono h).lt_or_eq with hlt | heq
  · have hx := nearestEven_le_floor_add_one x
    have hy := floor_le_nearestEven y
    omega
  · unfold nearestEven
    rw [← heq]
    split_ifs <;> first | omega | linarith

/-- Whole bounds survive rounding. -/
theorem le_nearestEven {n : ℤ} {x : ℝ} (h : (n : ℝ) ≤ x) : n ≤ nearestEven x := by
  simpa using nearestEven_mono h

theorem nearestEven_le {n : ℤ} {x : ℝ} (h : x ≤ n) : nearestEven x ≤ n := by
  simpa using nearestEven_mono h

/-- More than half below a whole number, it is not reached. -/
theorem nearestEven_lt {n : ℤ} {x : ℝ} (h : x < n - 1 / 2) : nearestEven x < n := by
  have hfloor : ⌊x⌋ < n := by
    rw [Int.floor_lt]
    linarith
  rcases (Int.le_sub_one_of_lt hfloor).lt_or_eq with hlt | heq
  · have := nearestEven_le_floor_add_one x
    omega
  · -- just below `n`, the lower neighbour is the nearer one
    rw [nearestEven, heq, if_pos (by push_cast; linarith)]
    omega

/-! ### Magnitudes -/

/-- That many units of the binary place `e`. -/
def units (n e : ℤ) : ℝ := n * 2 ^ e

@[simp] theorem units_eq (n e : ℤ) : units n e = n * 2 ^ e := rfl

/-- The exponent of the last of 53 binary places, which is never finer than the format's. -/
def lastPlace (x : ℝ) : ℤ := max (Int.log 2 x - 52) (-1074)

theorem le_lastPlace (x : ℝ) : -1074 ≤ lastPlace x := le_max_right _ _

theorem lastPlace_mono {x y : ℝ} (hx : 0 < x) (h : x ≤ y) : lastPlace x ≤ lastPlace y := by
  have := Int.log_mono_right (b := 2) hx h
  unfold lastPlace
  omega

/-- A magnitude fills at most 53 places. -/
theorem lt_zpow_lastPlace (x : ℝ) : x < 2 ^ (lastPlace x + 53) := by
  refine (Int.lt_zpow_succ_log_self (b := 2) one_lt_two x).trans_le ?_
  refine zpow_le_zpow_right₀ one_le_two ?_
  unfold lastPlace
  omega

/-- Above the finest last place a magnitude fills all of them. -/
theorem zpow_lastPlace_le {x : ℝ} (hx : 0 < x) (h : lastPlace x ≠ -1074) :
    2 ^ (lastPlace x + 52) ≤ x := by
  have hlog : lastPlace x + 52 = Int.log 2 x := by
    unfold lastPlace at h ⊢
    omega
  rw [hlog]
  exact Int.zpow_log_le_self one_lt_two hx

theorem lastPlace_le {x : ℝ} {e : ℤ} (hx : 0 < x) (he : -1074 ≤ e) (h : x < 2 ^ (e + 53)) :
    lastPlace x ≤ e := by
  have hlog : Int.log 2 x < e + 53 := (Int.lt_zpow_iff_log_lt one_lt_two hx).mp h
  unfold lastPlace
  omega

/-- In its last place a magnitude has at most 53 digits, or rounds up to the first number with
54. -/
theorem nearestEven_lastPlace_le (x : ℝ) : nearestEven (x / 2 ^ lastPlace x) ≤ 2 ^ 53 := by
  refine nearestEven_le ?_
  rw [div_le_iff₀ (by positivity)]
  have := lt_zpow_lastPlace x
  rw [zpow_add₀ two_ne_zero] at this
  push_cast
  linarith

/-- Above the finest last place it has all 53. -/
theorem le_nearestEven_lastPlace {x : ℝ} (hx : 0 < x) (h : lastPlace x ≠ -1074) :
    2 ^ 52 ≤ nearestEven (x / 2 ^ lastPlace x) := by
  refine le_nearestEven ?_
  rw [le_div_iff₀ (by positivity)]
  have := zpow_lastPlace_le hx h
  rw [zpow_add₀ two_ne_zero] at this
  push_cast
  linarith

/-- The nearest multiple of the last place. -/
def roundMagnitude (x : ℝ) : ℝ := nearestEven (x / 2 ^ lastPlace x) * 2 ^ lastPlace x

@[simp] theorem roundMagnitude_zero : roundMagnitude 0 = 0 := by
  have h := nearestEven_intCast 0
  rw [Int.cast_zero] at h
  simp [roundMagnitude, h]

theorem roundMagnitude_nonneg {x : ℝ} (hx : 0 ≤ x) : 0 ≤ roundMagnitude x := by
  have h : 0 ≤ nearestEven (x / 2 ^ lastPlace x) := le_nearestEven (by simpa using by positivity)
  unfold roundMagnitude
  positivity

/-- Rounding keeps the order of magnitudes: with one last place it does so place by place, and
otherwise a power of two lies between them, which no rounding crosses. -/
theorem roundMagnitude_mono {x y : ℝ} (hx : 0 ≤ x) (h : x ≤ y) :
    roundMagnitude x ≤ roundMagnitude y := by
  rcases hx.eq_or_lt with rfl | hpos
  · simpa using roundMagnitude_nonneg h
  rcases (lastPlace_mono hpos h).eq_or_lt with heq | hlt
  · unfold roundMagnitude
    rw [← heq]
    have hdiv : x / 2 ^ lastPlace x ≤ y / 2 ^ lastPlace x := by gcongr
    have := nearestEven_mono hdiv
    gcongr
  · have hx53 := nearestEven_lastPlace_le x
    have hy52 : 2 ^ 52 ≤ nearestEven (y / 2 ^ lastPlace y) := by
      have hfinest := le_lastPlace x
      exact le_nearestEven_lastPlace (hpos.trans_le h) (by omega)
    calc roundMagnitude x
        ≤ ((2 ^ 53 : ℤ) : ℝ) * 2 ^ lastPlace x := by
          unfold roundMagnitude
          gcongr
      _ = ((2 ^ 52 : ℤ) : ℝ) * 2 ^ (lastPlace x + 1) := by
          rw [zpow_add₀ two_ne_zero]
          push_cast
          ring
      _ ≤ ((2 ^ 52 : ℤ) : ℝ) * 2 ^ lastPlace y := by
          gcongr
          · exact one_le_two
          · exact hlt
      _ ≤ roundMagnitude y := by
          unfold roundMagnitude
          gcongr

/-- A magnitude that 53 places hold stays what it is. -/
theorem roundMagnitude_eq_self {m : ℕ} {e : ℤ} (hm : m < 2 ^ 53) (he : -1074 ≤ e) :
    roundMagnitude (m * 2 ^ e) = m * 2 ^ e := by
  rcases Nat.eq_zero_or_pos m with rfl | hpos
  · simp
  have hx : (0 : ℝ) < m * 2 ^ e := by positivity
  have hlt : (m : ℝ) * 2 ^ e < 2 ^ (e + 53) := by
    rw [zpow_add₀ two_ne_zero, mul_comm]
    gcongr
    exact_mod_cast hm
  obtain ⟨k, hk⟩ := Int.le.dest (lastPlace_le hx he hlt)
  have hscale : (m : ℝ) * 2 ^ e / 2 ^ lastPlace (m * 2 ^ e) = ((m * 2 ^ k : ℤ) : ℝ) := by
    rw [div_eq_iff (by positivity)]
    conv_lhs => rw [← hk, zpow_add₀ two_ne_zero, zpow_natCast]
    push_cast
    ring
  rw [roundMagnitude, hscale, nearestEven_intCast, ← hscale, div_mul_cancel₀ _ (by positivity)]

/-! ### The range -/

/-- The coarsest last place of a finite number. -/
def coarsest : ℝ := 2 ^ (971 : ℤ)

theorem coarsest_pos : 0 < coarsest := by unfold coarsest; positivity

/-- A magnitude as an extended real, infinite once 53 places of the coarsest do not hold it. -/
def saturate (x : ℝ) : EReal := if x < 2 ^ 53 * coarsest then (x : EReal) else ⊤

theorem saturate_of_lt {x : ℝ} (h : x < 2 ^ 53 * coarsest) : saturate x = x := if_pos h

theorem saturate_of_le {x : ℝ} (h : 2 ^ 53 * coarsest ≤ x) : saturate x = ⊤ := if_neg h.not_gt

theorem saturate_mono {x y : ℝ} (h : x ≤ y) : saturate x ≤ saturate y := by
  by_cases hy : y < 2 ^ 53 * coarsest
  · rw [saturate_of_lt hy, saturate_of_lt (h.trans_lt hy)]
    exact EReal.coe_le_coe_iff.mpr h
  · rw [saturate_of_le (not_lt.mp hy)]
    exact le_top

@[simp] theorem saturate_zero : saturate 0 = 0 := by
  have := coarsest_pos
  rw [saturate_of_lt (by positivity), EReal.coe_zero]

theorem saturate_nonneg {x : ℝ} (h : 0 ≤ x) : 0 ≤ saturate x := by
  simpa using saturate_mono h

/-- The nearest binary64 number. -/
def nearest (x : ℝ) : EReal :=
  if x < 0 then -saturate (roundMagnitude (-x)) else saturate (roundMagnitude x)

theorem nearest_of_nonneg {x : ℝ} (h : 0 ≤ x) : nearest x = saturate (roundMagnitude x) :=
  if_neg h.not_gt

@[simp] theorem nearest_zero : nearest 0 = 0 := by
  rw [nearest_of_nonneg le_rfl, roundMagnitude_zero, saturate_zero]

theorem nearest_neg (x : ℝ) : nearest (-x) = -nearest x := by
  rcases lt_trichotomy x 0 with h | rfl | h
  · rw [nearest_of_nonneg (by linarith), nearest, if_pos h, neg_neg]
  · simp
  · rw [nearest_of_nonneg h.le, nearest, if_pos (by linarith), neg_neg]

/-- **Rounding keeps the order.** -/
theorem nearest_mono {x y : ℝ} (h : x ≤ y) : nearest x ≤ nearest y := by
  rcases le_or_gt 0 x with hx | hx
  · rw [nearest_of_nonneg hx, nearest_of_nonneg (hx.trans h)]
    exact saturate_mono (roundMagnitude_mono hx h)
  · have hneg : nearest x = -saturate (roundMagnitude (-x)) := if_pos hx
    rcases le_or_gt 0 y with hy | hy
    · rw [hneg, nearest_of_nonneg hy]
      have h1 := saturate_nonneg (roundMagnitude_nonneg (neg_nonneg.mpr hx.le))
      have h2 := saturate_nonneg (roundMagnitude_nonneg hy)
      exact (EReal.neg_le_of_neg_le (by simpa using h1)).trans h2
    · rw [hneg, nearest, if_pos hy, EReal.neg_le_neg_iff]
      exact saturate_mono (roundMagnitude_mono (by linarith) (by linarith))

/-- **A number that 53 places hold, within the range, stays what it is.** -/
theorem nearest_eq_coe {m : ℤ} {e : ℤ} (hm : m.natAbs < 2 ^ 53) (he : -1074 ≤ e)
    (hle : e ≤ 971) :
    nearest (m * 2 ^ e) = ((m * 2 ^ e : ℝ) : EReal) := by
  have hnat : ∀ n : ℕ, n < 2 ^ 53 → nearest (n * 2 ^ e) = ((n * 2 ^ e : ℝ) : EReal) := by
    intro n hn
    have hlt : (n : ℝ) * 2 ^ e < 2 ^ 53 * coarsest := by
      unfold coarsest
      refine mul_lt_mul (by exact_mod_cast hn) ?_ (by positivity) (by positivity)
      exact zpow_le_zpow_right₀ one_le_two hle
    rw [nearest_of_nonneg (by positivity), roundMagnitude_eq_self hn he, saturate_of_lt hlt]
  obtain ⟨n, rfl | rfl⟩ := m.eq_nat_or_neg
  · exact_mod_cast hnat n (by simpa using hm)
  · simp only [Int.cast_neg, Int.cast_natCast, neg_mul, EReal.coe_neg]
    rw [nearest_neg, hnat n (by simpa using hm)]

/-- Where 53 places of the coarsest are filled, the last place is the coarsest. -/
theorem lastPlace_eq_of_le {x : ℝ} (hlow : 2 ^ 52 * coarsest ≤ x)
    (hhigh : x < 2 ^ 53 * coarsest) :
    lastPlace x = 971 := by
  have hpos : 0 < x := lt_of_lt_of_le (mul_pos (by norm_num) coarsest_pos) hlow
  have hle : lastPlace x ≤ 971 := by
    refine lastPlace_le hpos (by norm_num) (hhigh.trans_eq ?_)
    rw [zpow_add₀ two_ne_zero, mul_comm]
    rfl
  have hge : 1023 ≤ Int.log 2 x := by
    refine (Int.zpow_le_iff_le_log (b := 2) one_lt_two hpos).mp (le_trans (le_of_eq ?_) hlow)
    rw [coarsest, ← zpow_natCast, ← zpow_add₀ two_ne_zero]
    rfl
  unfold lastPlace at hle ⊢
  omega

/-- Less than half a last place beyond the largest number, rounding still turns back. -/
theorem roundMagnitude_lt {x : ℝ} (hx : 0 ≤ x) (h : x < (2 ^ 53 - 1 / 2) * coarsest) :
    roundMagnitude x < 2 ^ 53 * coarsest := by
  have hc := coarsest_pos
  rcases lt_or_ge x (2 ^ 52 * coarsest) with hlow | hhigh
  · have hone := roundMagnitude_eq_self (m := 2 ^ 52) (e := 971) (by norm_num) (by norm_num)
    simp only [Nat.cast_pow, Nat.cast_ofNat] at hone
    calc roundMagnitude x ≤ roundMagnitude (2 ^ 52 * coarsest) := roundMagnitude_mono hx hlow.le
      _ = 2 ^ 52 * coarsest := hone
      _ < 2 ^ 53 * coarsest := by linarith
  · have hlast : lastPlace x = 971 := lastPlace_eq_of_le hhigh (by linarith)
    have hlt : nearestEven (x / coarsest) < 2 ^ 53 := by
      refine nearestEven_lt ?_
      rw [div_lt_iff₀ hc]
      exact_mod_cast h
    rw [roundMagnitude, hlast]
    have hcast : (nearestEven (x / coarsest) : ℝ) < 2 ^ 53 := by exact_mod_cast hlt
    exact mul_lt_mul_of_pos_right hcast hc

/-- **Rounding is finite** up to half a last place beyond the largest number. -/
theorem nearest_lt_top {x : ℝ} (h : x < (2 ^ 53 - 1 / 2) * coarsest) : nearest x < ⊤ := by
  rcases le_or_gt 0 x with hx | hx
  · rw [nearest_of_nonneg hx, saturate_of_lt (roundMagnitude_lt hx h)]
    exact EReal.coe_lt_top _
  · refine (nearest_mono hx.le).trans_lt ?_
    rw [nearest_zero]
    exact EReal.zero_lt_top

theorem bot_lt_nearest {x : ℝ} (h : -((2 ^ 53 - 1 / 2) * coarsest) < x) : ⊥ < nearest x := by
  have := nearest_lt_top (x := -x) (by linarith)
  rw [nearest_neg] at this
  exact EReal.neg_lt_neg_iff.mp (by simpa using this)

end

end HeatingPlant.Floating
