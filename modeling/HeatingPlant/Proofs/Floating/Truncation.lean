import HeatingPlant.Proofs.Floating.Extended
import HeatingPlant.Proofs.Floating.Whole

/-!
# Cutting floats at the point

What a float loses when it is cut off at its point or rounded to a whole number, and that casts to
bounded integers keep the order of all floats.

## Main definitions

* `towardZero` — the whole part of a number, toward zero

## Main statements

* `denotes_truncate` — cutting off a float cuts off the number that it denotes
* `denotes_sub_nearest` — what a float differs by from the whole number nearest to it is a float
* `toUInt16_mono`, `toIntWithin_mono` — the casts keep the order, infinities included
* `toIntWithin_of_denotes` — the cast of a whole number

## Design notes

A cast to a bounded integer holds what lies outside of the range at its ends.  So it is described
by the words that a float reaches, and the order of words is that of floats because the latter
reach the more of them the larger they are.
-/

open Float.Model Float.Model.UnpackedFloat

namespace HeatingPlant.Floating

noncomputable section

variable {x y : Float} {r : ℝ}

/-! ### Opposites -/

theorem isNaN_neg (x : Float) : (-x).isNaN = x.isNaN := by
  show (-x).toModel.unpack.isNaN = x.toModel.unpack.isNaN
  rw [unpack_neg]
  cases x.toModel.unpack <;> rfl

theorem extended_neg (x : Float) : extended (-x) = -extended x := by
  rw [extended, unpack_neg, value_neg]
  rfl

/-- Changing the signs turns the order around. -/
protected theorem neg_le_neg (h : x ≤ y) : -y ≤ -x := by
  obtain ⟨hx, hy, hle⟩ := le_iff.mp h
  refine le_iff.mpr ⟨(isNaN_neg y).trans hy, (isNaN_neg x).trans hx, ?_⟩
  rw [extended_neg, extended_neg]
  exact EReal.neg_le_neg_iff.mpr hle

/-- The magnitude of a number that is not finite is not either. -/
theorem extended_abs_of_not_isFinite (hx : x.isNaN = false) (h : x.isFinite = false) :
    x.abs.isNaN = false ∧ extended x.abs = ⊤ := by
  obtain ⟨sign, hu⟩ := unpack_of_not_isFinite hx h
  have habs : x.abs = .ofModel (.pack (.infinity .positive)) := by
    show Float.ofModel (.pack x.toModel.unpack.abs) = _
    rw [hu]
    rfl
  have hround := roundsTo_pack_infinity .positive
  rw [habs]
  exact ⟨hround.isNaN_eq, hround.extended_eq⟩

/-! ### Order of the casts -/

/-- The 16-bit word of a float that is not negative is its 64-bit word, held at the largest word. -/
theorem toNat_toUInt16_eq (h : 0 ≤ x) : x.toUInt16.toNat = min x.toUInt64.toNat 65535 := by
  obtain ⟨r, hr, hx⟩ | hunpack := denotes_or_infinite h
  · rw [toNat_toUInt16 hx hr, toNat_toUInt64 hx hr]
    omega
  · have hshort : x.toUInt16 = 65535 := by
      show UInt16.ofNatClamp (x.toModel.unpack.toInt _ _).toNat = _
      rw [hunpack]
      rfl
    rw [hshort, toUInt64_of_infinite hunpack]
    rfl

/-- The word of a float below zero is zero. -/
theorem toUInt16_of_neg (h : x < 0) : x.toUInt16 = 0 := by
  have hvalue : extended x < 0 := extended_zero ▸ (lt_iff.mp h).2.2
  have hcut : (x.toModel.unpack.toInt 0 65535).toNat = 0 := by
    unfold extended at hvalue
    cases hu : x.toModel.unpack with
    | notANumber => rfl
    | zero sign => rfl
    | infinity sign =>
        cases sign with
        | positive => rw [hu] at hvalue; exact absurd hvalue not_top_lt
        | negative => rfl
    | finite sign m e hm =>
        cases sign with
        | positive =>
            rw [hu, value_eq_exact rfl, exact_finite, EReal.coe_neg'] at hvalue
            exact absurd hvalue (by simp [withSign, Sign.apply]; positivity)
        | negative =>
            rw [toInt, roundToInt_eq]
            exact Int.toNat_of_nonpos (neg_nonpos.mpr (Int.floor_nonneg.mpr (by positivity)))
  show UInt16.ofNatClamp (x.toModel.unpack.toInt 0 65535).toNat = 0
  rw [hcut]
  rfl

/-- **Larger floats have larger 64-bit words.** -/
theorem toUInt64_mono (h : 0 ≤ x) (hle : x ≤ y) : x.toUInt64.toNat ≤ y.toUInt64.toNat := by
  obtain ⟨hword, hvalue⟩ := (le_toUInt64_iff h).mp le_rfl
  exact (le_toUInt64_iff (Floating.le_trans h hle)).mpr
    ⟨hword, hvalue.trans (le_iff.mp hle).2.2⟩

/-- **Larger floats have larger 16-bit words.** -/
theorem toUInt16_mono (h : x ≤ y) : x.toUInt16 ≤ y.toUInt16 := by
  obtain ⟨hx, hy, -⟩ := le_iff.mp h
  by_cases hneg : x < 0
  · rw [toUInt16_of_neg hneg]
    exact UInt16.zero_le
  · have hnonneg : 0 ≤ x := Floating.le_of_not_lt hx (by decide) hneg
    have hwords := toUInt64_mono hnonneg h
    rw [UInt16.le_iff_toNat_le, toNat_toUInt16_eq hnonneg,
      toNat_toUInt16_eq (Floating.le_trans hnonneg h)]
    omega

/-- **Larger floats are cast to larger integers**, whatever these are held between. -/
theorem toIntWithin_mono (lo hi : ℤ) (h : x ≤ y) :
    Number.toIntWithin lo hi x ≤ Number.toIntWithin lo hi y := by
  obtain ⟨hx, hy, -⟩ := le_iff.mp h
  have hhold : ∀ {m n : ℤ}, m ≤ n → Number.hold lo hi m ≤ Number.hold lo hi n := by
    intro m n hmn
    unfold Number.hold
    omega
  unfold Number.toIntWithin
  apply hhold
  by_cases hxneg : x < 0
  · by_cases hyneg : y < 0
    · rw [if_pos hxneg, if_pos hyneg]
      have hnonneg : 0 ≤ -y :=
        Floating.le_trans (by decide) (Floating.neg_le_neg (Floating.le_of_lt hyneg))
      have hwords := toUInt64_mono hnonneg (Floating.neg_le_neg h)
      omega
    · rw [if_pos hxneg, if_neg hyneg]
      omega
  · have hnonneg : 0 ≤ x := Floating.le_of_not_lt hx (by decide) hxneg
    rw [if_neg hxneg, if_neg (Floating.not_lt_of_le (Floating.le_trans hnonneg h))]
    exact_mod_cast toUInt64_mono hnonneg h

/-- **A whole number is cast to itself**, held between the ends. -/
theorem toIntWithin_of_denotes {n : ℤ} (h : Denotes x n) (hn : |n| < 2 ^ 64) (lo hi : ℤ) :
    Number.toIntWithin lo hi x = Number.hold lo hi n := by
  obtain ⟨hlow, hhigh⟩ := abs_lt.mp hn
  have hword : ∀ {y : Float} {k : ℕ}, Denotes y (k : ℝ) → k < 2 ^ 64 →
    y.toUInt64.toNat = k := by
    intro y k hy hk
    rw [toNat_toUInt64 hy (Nat.cast_nonneg k), Nat.floor_natCast]
    omega
  have hsign : x < 0 ↔ n < 0 := by
    rw [h.lt_iff denotes_zero, Int.cast_lt_zero]
  unfold Number.toIntWithin
  by_cases hneg : n < 0
  · obtain ⟨k, rfl⟩ := Int.exists_eq_neg_ofNat hneg.le
    have hopposite : Denotes (-x) (k : ℝ) := by simpa using h.neg
    rw [if_pos (hsign.mpr hneg), hword hopposite (by omega)]
  · obtain ⟨k, rfl⟩ := Int.eq_ofNat_of_zero_le (not_lt.mp hneg)
    rw [if_neg (mt hsign.mp hneg), hword (by simpa using h) (by omega)]

/-! ### Whole parts -/

/-- The whole part of a number, toward zero. -/
def towardZero (r : ℝ) : ℤ := if r < 0 then -⌊-r⌋ else ⌊r⌋

theorem towardZero_neg (r : ℝ) : towardZero (-r) = -towardZero r := by
  unfold towardZero
  rcases lt_trichotomy r 0 with h | rfl | h
  · rw [if_neg (by linarith), if_pos h, neg_neg]
  · simp
  · rw [if_pos (by linarith), if_neg (by linarith), neg_neg]

theorem roundAway_neg (r : ℝ) : roundAway (-r) = -roundAway r := by
  unfold roundAway
  rcases lt_trichotomy r 0 with h | rfl | h
  · rw [if_neg (by linarith), if_pos h, neg_neg]
  · simp
  · rw [if_pos (by linarith), if_neg (by linarith), neg_neg]

/-- **Cutting off a float cuts off the number that it denotes.** -/
theorem denotes_truncate (h : Denotes x r) (hr : |r| < 2 ^ 52) :
    Denotes (Number.truncate x) (towardZero r) := by
  have hsmall : x.abs < Number.wholeFrom := (h.abs.lt_iff denotes_wholeFrom).mpr hr
  have hfloor : ⌊|r|⌋₊ < 2 ^ 52 := (Nat.floor_lt (abs_nonneg r)).mpr (by exact_mod_cast hr)
  have hwhole : Denotes x.abs.toUInt64.toFloat ⌊|r|⌋ := by
    have hround := rounds_uint64 x.abs.toUInt64
    rw [toNat_toUInt64 h.abs (abs_nonneg r), min_eq_left (by omega)] at hround
    rw [← Int.natCast_floor_eq_floor (abs_nonneg r), Int.cast_natCast]
    exact hround.denotes (nearest_natCast (by omega))
  unfold Number.truncate Number.withSignOf towardZero
  dsimp only
  rw [if_pos hsmall]
  by_cases hneg : r < 0
  · rw [if_pos ((h.lt_iff denotes_zero).mpr hneg), if_pos hneg]
    rw [abs_of_neg hneg] at hwhole
    push_cast
    exact hwhole.neg
  · rw [if_neg (mt (h.lt_iff denotes_zero).mp hneg), if_neg hneg]
    rwa [abs_of_nonneg (not_lt.mp hneg)] at hwhole

/-- A float is below the numbers that have nothing after their points, or beyond them on one
side. -/
theorem small_or_large (hx : x.isNaN = false) :
    (∃ r, Denotes x r ∧ |r| < 2 ^ 52) ∨
      ¬x.abs < Number.wholeFrom ∧
        (extended x ≤ ((-2 ^ 52 : ℝ) : EReal) ∨ ((2 ^ 52 : ℝ) : EReal) ≤ extended x) := by
  cases hfin : x.isFinite with
  | true =>
      have hself : Denotes x (real x) := ⟨hfin, rfl⟩
      rcases lt_or_ge |real x| (2 ^ 52) with hsmall | hlarge
      · exact .inl ⟨real x, hself, hsmall⟩
      · refine .inr ⟨mt (hself.abs.lt_iff denotes_wholeFrom).mp hlarge.not_gt, ?_⟩
        rw [extended_eq_real hfin, EReal.coe_le_coe_iff, EReal.coe_le_coe_iff]
        rcases le_abs.mp hlarge with habove | hbelow
        · exact .inr habove
        · exact .inl (by linarith)
  | false =>
      obtain ⟨-, htop⟩ := extended_abs_of_not_isFinite hx hfin
      refine .inr ⟨fun hlt => not_top_lt (htop ▸ (lt_iff.mp hlt).2.2), ?_⟩
      rcases extended_of_not_isFinite hx hfin with h | h <;> rw [h]
      · exact .inr le_top
      · exact .inl bot_le

/-- From here on a float has nothing after its point. -/
theorem truncate_of_large (h : ¬x.abs < Number.wholeFrom) : Number.truncate x = x := by
  unfold Number.truncate
  dsimp only
  rw [if_neg h]

theorem nearest_of_large (h : ¬x.abs < Number.wholeFrom) : Number.nearest x = x := by
  unfold Number.nearest
  dsimp only
  rw [if_neg h]

/-! ### What is left -/

/-- A finite float is a whole number of at most 53 places, moved by some places. -/
theorem Denotes.exists_places (h : Denotes x r) :
    ∃ m e : ℤ, r = m * 2 ^ e ∧ m.natAbs < 2 ^ 53 ∧ -1074 ≤ e ∧ e ≤ 971 := by
  obtain ⟨hfin, rfl⟩ := h
  have hsettled := settled_toModel x
  change x.toModel.unpack.isFinite = true at hfin
  unfold real
  cases hu : x.toModel.unpack with
  | notANumber => rw [hu] at hfin; cases hfin
  | infinity sign => rw [hu] at hfin; cases hfin
  | zero sign => exact ⟨0, 0, by simp [exact_zero], by norm_num, by norm_num, by norm_num⟩
  | finite sign m e hm =>
      rw [hu] at hsettled
      obtain ⟨⟨hlt, hge, -⟩, hle⟩ := hsettled
      refine ⟨sign.apply m, e, ?_, ?_, hge, hle⟩
      · rw [exact_finite]
        cases sign <;> simp [withSign, Sign.apply]
      · cases sign <;> simpa [Sign.apply] using hlt

theorem abs_sub_roundAway_le (r : ℝ) :
    |r - roundAway r| ≤ |r| ∧ |r - roundAway r| ≤ 1 / 2 := by
  have hround : ∀ q : ℝ, |q - round q| ≤ |q| ∧ |q - round q| ≤ 1 / 2 := fun q =>
    ⟨by simpa using round_le q 0, abs_sub_round q⟩
  unfold roundAway
  split
  · have hopposite : r - (-round (-r) : ℤ) = -(-r - round (-r)) := by push_cast; ring
    rw [hopposite, abs_neg, ← abs_neg r]
    exact hround (-r)
  · exact hround r

/-- What a number of few places differs by from the nearest whole number has no more places. -/
theorem nearest_sub_roundAway (h : Denotes x r) :
    nearest (r - roundAway r) = (r - roundAway r : ℝ) := by
  obtain ⟨m, e, rfl, hm, hge, hle⟩ := h.exists_places
  obtain ⟨hself, hhalf⟩ := abs_sub_roundAway_le (m * 2 ^ e)
  rcases le_or_gt 0 e with he | he
  · -- nothing at all
    obtain ⟨k, rfl⟩ := Int.eq_ofNat_of_zero_le he
    have hwhole : (m : ℝ) * 2 ^ (k : ℤ) = ((m * 2 ^ k : ℤ) : ℝ) := by push_cast; rfl
    rw [hwhole, roundAway_eq (n := m * 2 ^ k) (by simp), sub_self, nearest_zero, EReal.coe_zero]
  · obtain ⟨k, rfl⟩ := Int.exists_eq_neg_ofNat he.le
    have hpos : (0 : ℝ) < 2 ^ (-(k : ℤ)) := by positivity
    obtain ⟨j, hj⟩ :
      ∃ j : ℤ, (m : ℝ) * 2 ^ (-(k : ℤ)) - roundAway (m * 2 ^ (-(k : ℤ))) =
        j * 2 ^ (-(k : ℤ)) := by
      refine ⟨m - roundAway (m * 2 ^ (-(k : ℤ))) * 2 ^ k, ?_⟩
      have hunit : (2 : ℝ) ^ k * 2 ^ (-(k : ℤ)) = 1 := by
        rw [← zpow_natCast, ← zpow_add₀ two_ne_zero, add_neg_cancel, zpow_zero]
      push_cast
      rw [sub_mul, mul_assoc, hunit, mul_one]
    rw [hj] at hself ⊢
    have hfew : |(j : ℝ)| ≤ |(m : ℝ)| := by
      rw [abs_mul, abs_mul] at hself
      exact le_of_mul_le_mul_right hself (abs_pos.mpr hpos.ne')
    have hplaces : j.natAbs ≤ m.natAbs := by
      rwa [← Int.cast_abs, ← Int.cast_abs, Int.cast_le, ← Int.natCast_natAbs,
        ← Int.natCast_natAbs, Nat.cast_le] at hfew
    exact nearest_eq_coe (hplaces.trans_lt hm) hge hle

/-- **What a float differs by from the nearest whole number is a float.** -/
theorem denotes_sub_nearest (h : Denotes x r) (hr : |r| < 2 ^ 52) :
    Denotes (x - Number.nearest x) (r - roundAway r) :=
  (h.rounds_sub (denotes_nearest h hr)).denotes (nearest_sub_roundAway h)

end

end HeatingPlant.Floating
