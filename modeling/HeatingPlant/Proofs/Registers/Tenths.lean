import HeatingPlant.Proofs.Floating.Whole
import HeatingPlant.Registers.Tenths

/-!
# Tenths and back

A word of tenths stands for a quantity that is not a float in general, and ten times its rounding is
not a whole number in general.  The slack makes up for both roundings, so that no word is lost.

## Main statements

* `Tenths.rounds_decode` — a word stands for a tenth of itself, rounded
* `Tenths.encode_decode` — writing that quantity in tenths gives the word back
-/

namespace HeatingPlant.Tenths

open Floating

theorem denotes_ten : Denotes 10 10 := denotes_ofNat 10 (by norm_num)

/-- **A word stands for a tenth of itself, rounded.** -/
theorem rounds_decode (word : UInt16) : Rounds (decode word) (word.toNat / 10) :=
  (denotes_uint16 word).rounds_div denotes_ten (by norm_num)

/-- A product that misses a whole number by two roundings only counts as that number. -/
theorem ofFloat_of_near {x : Float} {r : ℝ} {n : ℤ} (h : Denotes (x * 10) r)
    (hnear : |r - n| ≤ 2 ^ (-35 : ℤ)) (hn : |(n : ℝ)| ≤ 65536) : Denotes (ofFloat x) n := by
  have hr : |r| < 2 ^ 52 := by
    have := abs_sub_abs_le_abs_sub r n
    norm_num at hnear ⊢
    linarith
  have hround : roundAway r = n := roundAway_eq (by norm_num at hnear ⊢; linarith)
  have hwhole : Denotes (Number.nearest (x * 10)) n := hround ▸ denotes_nearest h hr
  -- what is missing, after one more rounding
  obtain ⟨q, hq, hqr⟩ :=
    (h.rounds_sub hwhole).exists_denotes (e := -87) (by norm_num) (by norm_num)
      (by norm_num at hnear ⊢; linarith)
  have hmiss : |q| ≤ 2 ^ (-34 : ℤ) := by
    have := abs_sub_abs_le_abs_sub q (r - n)
    norm_num at hnear hqr ⊢
    linarith
  -- is less than the slack
  have hquotient := (denotes_ofNat 1 (by norm_num)).rounds_div
    (denotes_ofNat 1073741824 (by norm_num)) (by norm_num)
  have hthirty : Denotes (1 / 1073741824) (2 ^ (-30 : ℤ)) := by
    have hexact := nearest_eq_coe (m := 1) (e := -30) (by norm_num) (by norm_num) (by norm_num)
    norm_num at hquotient hexact ⊢
    exact hquotient.denotes hexact
  have hsmall : (x * 10 - Number.nearest (x * 10)).abs < 1 / 1073741824 := by
    rw [hq.abs.lt_iff hthirty]
    norm_num at hmiss ⊢
    linarith
  have hslack : (1 / 1073741824 : Float) < slack := by decide +kernel
  have hwithin : (x * 10 - Number.nearest (x * 10)).abs < slack := Floating.lt_trans hsmall hslack
  unfold ofFloat
  dsimp only
  rw [if_pos hwithin]
  exact hwhole

/-- **Writing what a word stands for in tenths gives the word back.** -/
theorem encode_decode (word : UInt16) : encode (decode word) = word := by
  have hword : (word.toNat : ℝ) ≤ 65535 := by exact_mod_cast Nat.le_of_lt_succ word.toNat_lt
  have hnonneg : (0 : ℝ) ≤ word.toNat := Nat.cast_nonneg _
  -- the quantity, and ten times it
  obtain ⟨q, hq, hqr⟩ :=
    (rounds_decode word).exists_denotes (e := -40) (by norm_num) (by norm_num)
      (by rw [abs_of_nonneg (by positivity)]; norm_num; linarith)
  obtain ⟨hqlow, hqhigh⟩ := abs_le.mp hqr
  obtain ⟨p, hp, hpr⟩ := (hq.rounds_mul denotes_ten).exists_denotes (e := -36) (by norm_num)
    (by norm_num) (by rw [abs_le]; norm_num at hqlow hqhigh ⊢; constructor <;> linarith)
  obtain ⟨hplow, hphigh⟩ := abs_le.mp hpr
  have hnear : |p - (word.toNat : ℤ)| ≤ 2 ^ (-35 : ℤ) := by
    rw [abs_le]
    norm_num at hqlow hqhigh hplow hphigh ⊢
    constructor <;> linarith
  have hwhole := ofFloat_of_near hp hnear (by
    rw [Int.cast_natCast, abs_of_nonneg hnonneg]
    linarith)
  apply UInt16.toNat_inj.mp
  rw [Int.cast_natCast] at hwhole
  rw [encode, toNat_toUInt16 hwhole hnonneg, Nat.floor_natCast]
  have := word.toNat_lt
  omega

end HeatingPlant.Tenths
