import HeatingPlant.Number.Whole
import HeatingPlant.Proofs.Floating.Arithmetic

/-!
# Whole numbers and floats near them

How far rounding moves a result, and what becomes of a float that is turned into a whole number.

## Main definitions

* `roundAway` — the nearest whole number, halves away from zero

## Main statements

* `Rounds.exists_denotes` — rounding moves a result by at most one unit of any place that 53
  places reach down to
* `Rounds.exists_denotes_near` — and by at most a small part of it
* `toNat_toUInt16`, `toNat_toUInt64` — the word of a float is its whole part, held at the largest
  word
* `le_toUInt64_iff`, `le_toInt32_iff` — the same for floats that may be infinite, by the numbers
  below
* `denotes_nearest` — rounding a float to a whole number rounds the number that it denotes

## Design notes

The bound on rounding errors is not the sharpest, which is half a unit; it is derived from the order
alone, since the neighbours of a number in any place are floats that rounding does not pass.
-/

open Float.Model Float.Model.UnpackedFloat

namespace HeatingPlant.Floating

noncomputable section

variable {x y : Float} {r s : ℝ}

/-! ### Errors -/

/-- Rounding does not pass a number that 53 places hold. -/
theorem Rounds.coe_le_extended {m e : ℤ} (h : Rounds x r) (hm : m.natAbs < 2 ^ 53)
    (he : -1074 ≤ e) (hle : e ≤ 971)
    (hr : m * 2 ^ e ≤ r) : ((m * 2 ^ e : ℝ) : EReal) ≤ extended x := by
  rw [h.extended_eq, ← nearest_eq_coe hm he hle]
  exact nearest_mono hr

theorem Rounds.extended_le_coe {m e : ℤ} (h : Rounds x r) (hm : m.natAbs < 2 ^ 53)
    (he : -1074 ≤ e) (hle : e ≤ 971)
    (hr : r ≤ m * 2 ^ e) : extended x ≤ ((m * 2 ^ e : ℝ) : EReal) := by
  rw [h.extended_eq, ← nearest_eq_coe hm he hle]
  exact nearest_mono hr

/-- **Rounding moves a result by at most one unit of a place**, if the result has no more than 53
places down to it. -/
theorem Rounds.exists_denotes {e : ℤ} (h : Rounds x r) (he : -1074 ≤ e) (hle : e ≤ 971)
    (hr : |r| ≤ (2 ^ 53 - 1) * 2 ^ e) : ∃ q, Denotes x q ∧ |q - r| ≤ 2 ^ e := by
  have hunit : (0 : ℝ) < 2 ^ e := by positivity
  have hplaces : |r / 2 ^ e| ≤ 2 ^ 53 - 1 := by
    rw [abs_div, abs_of_pos hunit]
    exact (div_le_iff₀ hunit).mpr hr
  obtain ⟨hlow, hhigh⟩ := abs_le.mp hplaces
  -- the neighbours of the result in this place
  have hfloor : -(2 ^ 53 - 1) ≤ ⌊r / 2 ^ e⌋ ∧ ⌊r / 2 ^ e⌋ ≤ 2 ^ 53 - 1 :=
    ⟨Int.le_floor.mpr (by push_cast; linarith), Int.floor_le_iff.mpr (by push_cast; linarith)⟩
  have hceil : -(2 ^ 53 - 1) ≤ ⌈r / 2 ^ e⌉ ∧ ⌈r / 2 ^ e⌉ ≤ 2 ^ 53 - 1 :=
    ⟨Int.le_ceil_iff.mpr (by push_cast; linarith), Int.ceil_le.mpr (by push_cast; linarith)⟩
  have hbelow : (⌊r / 2 ^ e⌋ : ℝ) * 2 ^ e ≤ r := (le_div_iff₀ hunit).mp (Int.floor_le _)
  have habove : r ≤ ⌈r / 2 ^ e⌉ * 2 ^ e := (div_le_iff₀ hunit).mp (Int.le_ceil _)
  -- are floats, which rounding does not pass
  have hge := h.coe_le_extended (by omega) he hle hbelow
  have hle' := h.extended_le_coe (by omega) he hle habove
  have hfinite : x.isFinite = true := isFinite_iff.mpr
    ⟨h.isNaN_eq, (EReal.bot_lt_coe _).trans_le hge, hle'.trans_lt (EReal.coe_lt_top _)⟩
  rw [extended_eq_real hfinite, EReal.coe_le_coe_iff] at hge hle'
  refine ⟨real x, ⟨hfinite, rfl⟩, ?_⟩
  have hgap : (⌈r / 2 ^ e⌉ : ℝ) * 2 ^ e ≤ ⌊r / 2 ^ e⌋ * 2 ^ e + 2 ^ e := by
    have hcast : (⌈r / 2 ^ e⌉ : ℝ) ≤ ⌊r / 2 ^ e⌋ + 1 := by
      exact_mod_cast Int.ceil_le_floor_add_one _
    nlinarith
  rw [abs_le]
  constructor <;> linarith

/-- **Rounding moves a result by a small part of it**, and by the finest place where it has fewer
digits than that. -/
theorem Rounds.exists_denotes_near (h : Rounds x r) (hr : 0 ≤ r) (hmost : r < 2 ^ (1000 : ℤ)) :
    ∃ q, Denotes x q ∧ |q - r| ≤ r * 2 ^ (-51 : ℤ) + 2 ^ (-1074 : ℤ) := by
  obtain rfl | hpos := hr.eq_or_lt
  · refine ⟨0, h.denotes nearest_zero, ?_⟩
    rw [sub_zero, abs_zero, zero_mul, zero_add]
    positivity
  have hlow : (2 : ℝ) ^ Int.log 2 r ≤ r := Int.zpow_log_le_self one_lt_two hpos
  have hhigh : r < 2 ^ (Int.log 2 r + 1) := Int.lt_zpow_succ_log_self one_lt_two r
  have hlog : Int.log 2 r < 1000 := (Int.lt_zpow_iff_log_lt one_lt_two hpos).mp hmost
  -- the place 51 places below the first digit, or the finest one
  obtain ⟨e, he⟩ : ∃ e, e = max (Int.log 2 r - 51) (-1074) := ⟨_, rfl⟩
  have hplaces : |r| ≤ (2 ^ 53 - 1) * 2 ^ e := by
    have hunit : (0 : ℝ) < 2 ^ e := by positivity
    have hdigits : (2 : ℝ) ^ (Int.log 2 r + 1) ≤ 2 ^ (52 : ℤ) * 2 ^ e := by
      rw [← zpow_add₀ two_ne_zero]
      exact zpow_le_zpow_right₀ one_le_two (by omega)
    rw [abs_of_pos hpos]
    norm_num at hdigits ⊢
    linarith
  obtain ⟨q, hq, herror⟩ := h.exists_denotes (e := e) (by omega) (by omega) hplaces
  refine ⟨q, hq, herror.trans ?_⟩
  have hnonneg : (0 : ℝ) ≤ r * 2 ^ (-51 : ℤ) := by positivity
  have hfinest : (0 : ℝ) ≤ 2 ^ (-1074 : ℤ) := by positivity
  obtain hcoarse | hfine := max_choice (Int.log 2 r - 51) (-1074)
  · rw [he, hcoarse, sub_eq_add_neg, zpow_add₀ two_ne_zero]
    exact (mul_le_mul_of_nonneg_right hlow (by positivity)).trans (le_add_of_nonneg_right hfinest)
  · rw [he, hfine]
    exact le_add_of_nonneg_left hnonneg

theorem Denotes.rounds_add (hx : Denotes x r) (hy : Denotes y s) : Rounds (x + y) (r + s) := by
  rw [← hx.real_eq, ← hy.real_eq]
  exact Floating.rounds_add hx.isFinite_eq hy.isFinite_eq

theorem Denotes.rounds_sub (hx : Denotes x r) (hy : Denotes y s) : Rounds (x - y) (r - s) := by
  rw [← hx.real_eq, ← hy.real_eq]
  exact Floating.rounds_sub hx.isFinite_eq hy.isFinite_eq

theorem Denotes.rounds_mul (hx : Denotes x r) (hy : Denotes y s) : Rounds (x * y) (r * s) := by
  rw [← hx.real_eq, ← hy.real_eq]
  exact Floating.rounds_mul hx.isFinite_eq hy.isFinite_eq

theorem Denotes.rounds_div (hx : Denotes x r) (hy : Denotes y s) (hs : s ≠ 0) :
    Rounds (x / y) (r / s) := by
  rw [← hx.real_eq, ← hy.real_eq]
  exact Floating.rounds_div hx.isFinite_eq hy.isFinite_eq (hy.real_eq ▸ hs)

/-- The order of finite floats is that of the numbers they denote. -/
theorem Denotes.lt_iff (hx : Denotes x r) (hy : Denotes y s) : x < y ↔ r < s := by
  rw [Floating.lt_iff, extended_eq_real hx.isFinite_eq, extended_eq_real hy.isFinite_eq, hx.real_eq,
    hy.real_eq, EReal.coe_lt_coe_iff]
  exact ⟨fun h => h.2.2, fun h => ⟨isNaN_of_isFinite hx.isFinite_eq,
    isNaN_of_isFinite hy.isFinite_eq, h⟩⟩

theorem Denotes.le_iff (hx : Denotes x r) (hy : Denotes y s) : x ≤ y ↔ r ≤ s := by
  rw [← real_le_real hx.isFinite_eq hy.isFinite_eq, hx.real_eq, hy.real_eq]

/-- **What rounds to a number between two floats lies between them.** -/
theorem Rounds.exists_between {low high : Float} {a b : ℝ} (h : Rounds x r) (hlow : Denotes low a)
    (hhigh : Denotes high b) (har : a ≤ r) (hrb : r ≤ b) :
    ∃ q, Denotes x q ∧ a ≤ q ∧ q ≤ b := by
  have hge := h.ge hlow.isFinite_eq (hlow.real_eq.trans_le har)
  have hle := h.le hhigh.isFinite_eq (hrb.trans_eq hhigh.real_eq.symm)
  have hx : Denotes x (real x) :=
    ⟨isFinite_of_between hlow.isFinite_eq hhigh.isFinite_eq hge hle, rfl⟩
  exact ⟨real x, hx, (hlow.le_iff hx).mp hge, (hx.le_iff hhigh).mp hle⟩

/-! ### Magnitudes -/

theorem exact_abs (u : UnpackedFloat) : exact u.abs = |exact u| := by
  cases u with
  | finite sign m e hm =>
      have hpos : (0 : ℝ) ≤ m * 2 ^ e := by positivity
      rw [UnpackedFloat.abs, exact_finite, exact_finite]
      cases sign <;> simp [withSign, Sign.apply, abs_of_nonneg hpos]
  | _ => exact abs_zero.symm

theorem Denotes.abs (h : Denotes x r) : Denotes x.abs |r| := by
  obtain ⟨hfin, rfl⟩ := h
  have hsettled : Settled x.toModel.unpack.abs := by
    have := settled_toModel x
    cases hu : x.toModel.unpack <;> rw [hu] at this <;> exact this
  have hunpack : x.abs.toModel.unpack = x.toModel.unpack.abs :=
    (unpack_pack hsettled.tidy).trans (settle_of_settled hsettled)
  constructor
  · show x.abs.toModel.unpack.isFinite = true
    change x.toModel.unpack.isFinite = true at hfin
    rw [hunpack]
    cases hu : x.toModel.unpack <;> rw [hu] at hfin <;> exact hfin
  · rw [real, hunpack, exact_abs]
    rfl

/-! ### Whole parts -/

/-- Cutting a magnitude off at its whole part. -/
theorem roundToInt_eq (sign : Sign) (m : ℕ) (e : ℤ) :
    roundToInt sign m e = sign.apply ⌊(m : ℝ) * 2 ^ e⌋ := by
  -- first the places above the point are filled, then those below it are shifted out
  have hshift := ((describes_exact (m <<< (e - 0).toNat)).shiftRight
    (0 - (e - ((e - 0).toNat : ℤ))).toNat).floor
  have hvalue : ((m <<< (e - 0).toNat : ℕ) : ℝ) / 2 ^ (0 - (e - ((e - 0).toNat : ℤ))).toNat =
      m * 2 ^ e := by
    rw [Nat.shiftLeft_eq, Nat.cast_mul, Nat.cast_pow, Nat.cast_ofNat]
    rcases le_total 0 e with he | he
    · obtain ⟨k, rfl⟩ := Int.eq_ofNat_of_zero_le he
      simp
    · obtain ⟨k, rfl⟩ := Int.exists_eq_neg_ofNat he
      simp [div_eq_mul_inv]
  rw [hvalue] at hshift
  rw [hshift]
  rfl

/-- A float that denotes nothing below zero is a zero or a positive mantissa with its exponent. -/
theorem Denotes.nonneg_cases (h : Denotes x r) (hr : 0 ≤ r) :
    (∃ sign, x.toModel.unpack = .zero sign ∧ r = 0) ∨
      ∃ m e hm, x.toModel.unpack = .finite .positive m e hm ∧ r = m * 2 ^ e := by
  obtain ⟨hfin, rfl⟩ := h
  change x.toModel.unpack.isFinite = true at hfin
  unfold real at hr ⊢
  cases hu : x.toModel.unpack with
  | notANumber => rw [hu] at hfin; cases hfin
  | infinity sign => rw [hu] at hfin; cases hfin
  | zero sign => exact .inl ⟨sign, rfl, rfl⟩
  | finite sign m e hm =>
      have hpos : (0 : ℝ) < m * 2 ^ e := by positivity
      rw [hu, exact_finite] at hr
      cases sign
      · -- a negative float is less than zero
        rw [withSign, Sign.apply] at hr
        push_cast at hr
        linarith
      · refine .inr ⟨m, e, hm, rfl, ?_⟩
        rw [exact_finite]
        simp [withSign, Sign.apply]

theorem toInt_unpack (h : Denotes x r) (hr : 0 ≤ r) (low high : ℤ) :
    x.toModel.unpack.toInt low high = ⌊r⌋ := by
  obtain ⟨sign, hunpack, rfl⟩ | ⟨m, e, hm, hunpack, rfl⟩ := h.nonneg_cases hr
  · rw [hunpack]
    exact Int.floor_zero.symm
  · rw [hunpack, toInt, roundToInt_eq]
    rfl

/-- **The 16-bit word of a float is its whole part**, held at the largest word. -/
theorem toNat_toUInt16 (h : Denotes x r) (hr : 0 ≤ r) :
    x.toUInt16.toNat = min ⌊r⌋₊ 65535 := by
  have hword : x.toUInt16 = UInt16.ofNatClamp ⌊r⌋.toNat :=
    congrArg (fun n : ℤ => UInt16.ofNatClamp n.toNat) (toInt_unpack h hr _ _)
  rw [hword, Int.floor_toNat, UInt16.ofNatClamp]
  split
  · rename_i hlt
    rw [UInt16.size] at hlt
    rw [UInt16.toNat_ofNatLT]
    omega
  · rename_i hge
    rw [UInt16.size] at hge
    rw [min_eq_right (by omega)]
    rfl

/-- So is the 64-bit word. -/
theorem toNat_toUInt64 (h : Denotes x r) (hr : 0 ≤ r) :
    x.toUInt64.toNat = min ⌊r⌋₊ 18446744073709551615 := by
  have hword : x.toUInt64 = UInt64.ofNatClamp ⌊r⌋.toNat :=
    congrArg (fun n : ℤ => UInt64.ofNatClamp n.toNat) (toInt_unpack h hr _ _)
  rw [hword, Int.floor_toNat, UInt64.ofNatClamp]
  split
  · rename_i hlt
    rw [UInt64.size] at hlt
    rw [UInt64.toNat_ofNatLT]
    omega
  · rename_i hge
    rw [UInt64.size] at hge
    rw [min_eq_right (by omega)]
    rfl

/-- A float that is not negative is finite, or beyond every number. -/
theorem denotes_or_infinite (h : 0 ≤ x) :
    (∃ r, 0 ≤ r ∧ Denotes x r) ∨ x.toModel.unpack = .infinity .positive := by
  have hvalue : 0 ≤ extended x := extended_zero ▸ (le_iff.mp h).2.2
  cases hfin : x.isFinite with
  | true =>
      rw [extended_eq_real hfin] at hvalue
      exact .inl ⟨real x, EReal.coe_nonneg.mp hvalue, hfin, rfl⟩
  | false =>
      obtain ⟨sign, hunpack⟩ := unpack_of_not_isFinite (le_iff.mp h).2.1 hfin
      cases sign with
      | positive => exact .inr hunpack
      | negative =>
          rw [extended, hunpack] at hvalue
          exact absurd (le_bot_iff.mp hvalue) EReal.zero_ne_bot

/-- A float beyond every number has the largest 64-bit word. -/
theorem toUInt64_of_infinite (h : x.toModel.unpack = .infinity .positive) :
    x.toUInt64 = 18446744073709551615 := by
  show UInt64.ofNatClamp (x.toModel.unpack.toInt _ _).toNat = _
  rw [h]
  rfl

/-- **A float that is not negative has a 64-bit word of at least `n` exactly if it is itself at
least `n`**, for every `n` that is a word; a float beyond them all has the largest. -/
theorem le_toUInt64_iff (h : 0 ≤ x) {n : ℕ} :
    n ≤ x.toUInt64.toNat ↔
      n ≤ 18446744073709551615 ∧ ((n : ℝ) : EReal) ≤ extended x := by
  obtain ⟨r, hr, hx⟩ | hunpack := denotes_or_infinite h
  · rw [toNat_toUInt64 hx hr, extended_eq_real hx.isFinite_eq, hx.real_eq, EReal.coe_le_coe_iff,
      ← Nat.le_floor_iff hr]
    omega
  · have htop : extended x = ⊤ := by
      rw [extended, hunpack]
      rfl
    rw [htop, toUInt64_of_infinite hunpack]
    exact ⟨fun hle => ⟨hle, le_top⟩, fun hle => hle.1⟩

/-- So it is with the signed 32-bit integers. -/
theorem le_toInt32_iff (h : 0 ≤ x) {n : ℕ} :
    (n : ℤ) ≤ Number.toInt32 x ↔ n ≤ 2147483647 ∧ ((n : ℝ) : EReal) ≤ extended x := by
  have hword := le_toUInt64_iff h (n := n)
  have hheld : Number.toInt32 x = min 2147483647 (x.toUInt64.toNat : ℤ) := by
    rw [Number.toInt32, Number.toIntWithin, if_neg (Floating.not_lt_of_le h), Number.hold]
    omega
  rw [hheld, le_min_iff, Nat.cast_le, hword, ← and_assoc]
  exact and_congr_left fun _ => by omega

/-! ### The nearest whole number -/

/-- The nearest whole number; halfway between two, the one farther from zero. -/
def roundAway (r : ℝ) : ℤ := if r < 0 then -round (-r) else round r

/-- A number less than half away from a whole one is rounded to it. -/
theorem roundAway_eq {n : ℤ} (h : |r - n| < 1 / 2) : roundAway r = n := by
  obtain ⟨hlow, hhigh⟩ := abs_lt.mp h
  unfold roundAway
  split
  · have hround : round (-r) = -n :=
      round_eq_iff.mpr ⟨by push_cast; linarith, by push_cast; linarith⟩
    rw [hround, neg_neg]
  · exact round_eq_iff.mpr ⟨by linarith, by linarith⟩

/-- The places of a mantissa below the point. -/
theorem sub_floor_eq_mod (m k : ℕ) :
    (m : ℝ) * 2 ^ (-(k : ℤ)) - ⌊(m : ℝ) * 2 ^ (-(k : ℤ))⌋₊ =
      (m % 2 ^ k : ℕ) * 2 ^ (-(k : ℤ)) := by
  have hk : ((2 ^ k : ℕ) : ℝ) ≠ 0 := by positivity
  have hdiv : (m : ℝ) * 2 ^ (-(k : ℤ)) = (m : ℝ) / ((2 ^ k : ℕ) : ℝ) := by
    rw [zpow_neg, zpow_natCast, div_eq_mul_inv]
    push_cast
    rfl
  have hmod : (m : ℝ) = ((2 ^ k : ℕ) : ℝ) * (m / 2 ^ k : ℕ) + (m % 2 ^ k : ℕ) := by
    exact_mod_cast (Nat.div_add_mod m (2 ^ k)).symm
  rw [hdiv, Nat.floor_div_eq_div, zpow_neg, zpow_natCast, ← div_eq_mul_inv]
  push_cast at hmod hk ⊢
  rw [eq_div_iff hk, sub_mul, div_mul_cancel₀ _ hk]
  linarith

/-- What a float has after the point is a number of 53 places. -/
theorem nearest_fract (h : Denotes x r) (hr : 0 ≤ r) :
    nearest (r - ⌊r⌋₊) = (r - ⌊r⌋₊ : ℝ) := by
  have hsettled := settled_toModel x
  obtain ⟨sign, -, rfl⟩ | ⟨m, e, hm, hunpack, rfl⟩ := h.nonneg_cases hr
  · simp
  rw [hunpack] at hsettled
  obtain ⟨⟨hlt, hge, -⟩, hle⟩ := hsettled
  rcases le_or_gt 0 e with he | he
  · -- nothing at all
    obtain ⟨k, rfl⟩ := Int.eq_ofNat_of_zero_le he
    have hwhole : (m : ℝ) * 2 ^ (k : ℤ) = ((m * 2 ^ k : ℕ) : ℝ) := by push_cast; rfl
    rw [hwhole, Nat.floor_natCast, sub_self, nearest_zero, EReal.coe_zero]
  · -- the places below the point
    obtain ⟨k, rfl⟩ := Int.exists_eq_neg_ofNat he.le
    have hfew : m % 2 ^ k < 2 ^ 53 := (Nat.mod_le m (2 ^ k)).trans_lt hlt
    have hexact := nearest_eq_coe (m := (m % 2 ^ k : ℕ)) (by exact_mod_cast hfew) hge hle
    rw [Int.cast_natCast] at hexact
    rw [sub_floor_eq_mod, hexact]

theorem denotes_half : Denotes 0.5 (1 / 2) := by
  have hquotient : (0.5 : Float) = 1 / 2 := by decide +kernel
  have hround := (denotes_ofNat 1 (by norm_num)).rounds_div (denotes_ofNat 2 (by norm_num))
    (by norm_num)
  have hexact := nearest_eq_coe (m := 1) (e := -1) (by norm_num) (by norm_num) (by norm_num)
  rw [hquotient]
  norm_num at hround hexact ⊢
  exact hround.denotes hexact

/-- The whole part of a float that is not negative, and one more if half or more is left, is the
number that it denotes, rounded. -/
theorem denotes_round (h : Denotes x r) (hr : 0 ≤ r) (hsmall : r < 2 ^ 52) :
    Denotes (if x - x.toUInt64.toFloat < 0.5 then x.toUInt64.toFloat else x.toUInt64.toFloat + 1)
      (round r) := by
  have hfloor : ⌊r⌋₊ < 2 ^ 52 := (Nat.floor_lt hr).mpr (by exact_mod_cast hsmall)
  have hword : x.toUInt64.toNat = ⌊r⌋₊ := by
    rw [toNat_toUInt64 h hr]
    omega
  have hwhole : Denotes x.toUInt64.toFloat ⌊r⌋₊ := by
    have := rounds_uint64 x.toUInt64
    rw [hword] at this
    exact this.denotes (nearest_natCast (by omega))
  have hrest := (h.rounds_sub hwhole).denotes (nearest_fract h hr)
  have hle := Nat.floor_le hr
  have hlt := Nat.lt_floor_add_one r
  by_cases hhalf : r - ⌊r⌋₊ < 1 / 2
  · have hdown : round r = (⌊r⌋₊ : ℤ) :=
      round_eq_iff.mpr ⟨by push_cast; linarith, by push_cast; linarith⟩
    rw [if_pos ((hrest.lt_iff denotes_half).mpr hhalf), hdown]
    exact_mod_cast hwhole
  · have hup : round r = ((⌊r⌋₊ + 1 : ℕ) : ℤ) :=
      round_eq_iff.mpr ⟨by push_cast; linarith, by push_cast; linarith⟩
    have hsum := rounds_add hwhole.isFinite_eq denotes_one.isFinite_eq
    have hexact := nearest_natCast (n := ⌊r⌋₊ + 1) (by omega)
    rw [hwhole.real_eq, denotes_one.real_eq] at hsum
    rw [if_neg (mt (hrest.lt_iff denotes_half).mp hhalf), hup]
    push_cast at hexact ⊢
    exact hsum.denotes hexact

theorem denotes_wholeFrom : Denotes Number.wholeFrom (2 ^ 52) := by
  have := denotes_ofNat 4503599627370496 (by norm_num)
  norm_num at this ⊢
  exact this

/-- **Rounding a float to a whole number rounds the number that it denotes.** -/
theorem denotes_nearest (h : Denotes x r) (hr : |r| < 2 ^ 52) :
    Denotes (Number.nearest x) (roundAway r) := by
  have hsmall : x.abs < Number.wholeFrom := (h.abs.lt_iff denotes_wholeFrom).mpr hr
  have hround := denotes_round h.abs (abs_nonneg r) hr
  -- the magnitude was rounded, and the sign is put back
  unfold Number.nearest Number.withSignOf roundAway
  dsimp only
  rw [if_pos hsmall]
  by_cases hneg : r < 0
  · rw [if_pos ((h.lt_iff denotes_zero).mpr hneg), if_pos hneg]
    rw [abs_of_neg hneg] at hround
    push_cast
    exact hround.neg
  · rw [if_neg (mt (h.lt_iff denotes_zero).mp hneg), if_neg hneg]
    rwa [abs_of_nonneg (not_lt.mp hneg)] at hround

end

end HeatingPlant.Floating
