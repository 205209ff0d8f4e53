import HeatingPlant.Proofs.Floating.Arithmetic

/-!
# Arithmetic with infinities

A sum, difference or product of floats that is a number is the one nearest to the sum, difference or
product of the extended reals that they denote.  So each operation keeps the order, also where it
overflows.

## Main definitions

* `nearestExtended` — the nearest binary64 number, of an extended real
* `RoundsTo` — a float is the one nearest to an extended real

## Main statements

* `roundsTo_add`, `roundsTo_sub` — sums and differences that are numbers
* `roundsTo_mul` — products with a positive finite factor
* `add_le_add_finite`, `sub_le_sub_finite`, `mul_le_mul_finite` — what follows for the order
* `sub_nonpos_of_le`, `sub_nonneg_of_le`, `mul_nonpos_of_nonpos`, `mul_nonneg_of_nonneg`,
  `add_le_self`, `le_add_self` — and for signs

## Design notes

Extended reals give a difference of like infinities a value, and floats do not; that a result is a
number is a hypothesis here, and `isNaN_sub_iff` says when it holds.
-/

open Float.Model Float.Model.UnpackedFloat

namespace HeatingPlant.Floating

noncomputable section

variable {x y z : Float} {r s : EReal}

/-- The binary64 number nearest to an extended real; the infinities are their own. -/
def nearestExtended : EReal → EReal
  | ⊥ => ⊥
  | ⊤ => ⊤
  | (r : ℝ) => nearest r

@[simp] theorem nearestExtended_top : nearestExtended ⊤ = ⊤ := rfl

@[simp] theorem nearestExtended_bot : nearestExtended ⊥ = ⊥ := rfl

@[simp] theorem nearestExtended_coe (r : ℝ) : nearestExtended r = nearest r := rfl

/-- **Rounding keeps the order**, infinities included. -/
theorem nearestExtended_mono (h : r ≤ s) : nearestExtended r ≤ nearestExtended s := by
  induction r with
  | bot => exact bot_le
  | top =>
      rw [top_le_iff.mp h]
  | coe r =>
      induction s with
      | bot => exact absurd (le_bot_iff.mp h) (EReal.coe_ne_bot r)
      | top => exact le_top
      | coe s => exact nearest_mono (EReal.coe_le_coe_iff.mp h)

/-- A float is the one nearest to an extended real. -/
structure RoundsTo (x : Float) (r : EReal) : Prop where
  /-- The float is a number. -/
  isNaN_eq : x.isNaN = false
  /-- It denotes the nearest one. -/
  extended_eq : extended x = nearestExtended r

theorem Rounds.roundsTo {r : ℝ} (h : Rounds x r) : RoundsTo x r := ⟨h.isNaN_eq, h.extended_eq⟩

/-- A number that is not finite denotes an infinity. -/
theorem extended_of_not_isFinite (hx : x.isNaN = false) (h : x.isFinite = false) :
    extended x = ⊤ ∨ extended x = ⊥ := by
  obtain ⟨sign, hu⟩ := unpack_of_not_isFinite hx h
  rw [extended, hu]
  cases sign
  · exact .inr rfl
  · exact .inl rfl

/-- A number that is not infinite is finite. -/
theorem isFinite_of_not_isInf (hx : x.isNaN = false) (h : x.isInf = false) : x.isFinite = true := by
  refine eq_true_of_ne_false fun hfin => ?_
  obtain ⟨sign, hu⟩ := unpack_of_not_isFinite hx hfin
  change x.toModel.unpack.isInf = false at h
  rw [hu] at h
  cases h

/-- A number is nearest to itself. -/
theorem roundsTo_self (h : x.isNaN = false) : RoundsTo x (extended x) := by
  refine ⟨h, ?_⟩
  cases hfin : x.isFinite with
  | true => rw [extended_eq_real hfin, nearestExtended_coe, nearest_real hfin]
  | false =>
      obtain htop | hbot := extended_of_not_isFinite h hfin
      · rw [htop, nearestExtended_top]
      · rw [hbot, nearestExtended_bot]

theorem RoundsTo.mono (hx : RoundsTo x r) (hy : RoundsTo y s) (h : r ≤ s) : x ≤ y := by
  refine le_iff.mpr ⟨hx.isNaN_eq, hy.isNaN_eq, ?_⟩
  rw [hx.extended_eq, hy.extended_eq]
  exact nearestExtended_mono h

/-! ### Operations with infinities -/

section Infinity

variable {u : UnpackedFloat} (sign : Sign)

theorem roundsTo_pack_infinity :
    RoundsTo (.ofModel (.pack (.infinity sign))) (value (.infinity sign)) := by
  refine ⟨isNaN_pack_infinity sign, ?_⟩
  have hunpack :
    (Float.ofModel (.pack (.infinity sign))).toModel.unpack = settle (.infinity sign) :=
    unpack_pack (u := .infinity sign) trivial
  rw [extended, hunpack]
  cases sign <;> rfl

/-- What is finite makes no difference to an infinity. -/
theorem value_infinity_add (hu : u.isFinite = true) :
    value (.infinity sign) + value u = value (.infinity sign) := by
  rw [value_eq_exact hu]
  cases sign
  · exact EReal.bot_add _
  · exact EReal.top_add_coe _

theorem infinity_add (hu : u.isFinite = true) :
    UnpackedFloat.add Format.binary64 (.infinity sign) u = .infinity sign := by
  cases u <;> first | rfl | cases hu

theorem add_infinity (hu : u.isFinite = true) :
    UnpackedFloat.add Format.binary64 u (.infinity sign) = .infinity sign := by
  cases u <;> first | rfl | cases hu

end Infinity

/-! ### Sums and differences -/

theorem isNaN_add_of_left (h : x.isNaN = true) (y : Float) : (x + y).isNaN = true := by
  show (Float.ofModel (.pack (.add _ x.toModel.unpack y.toModel.unpack))).isNaN = true
  rw [unpack_of_isNaN h]
  exact isNaN_pack_notANumber

theorem value_neg (u : UnpackedFloat) : value u.neg = -value u := by
  cases u with
  | notANumber => exact neg_zero.symm
  | infinity sign =>
      cases sign
      · exact EReal.neg_bot.symm
      · exact EReal.neg_top.symm
  | zero sign => exact neg_zero.symm
  | finite sign m e hm =>
      rw [value_eq_exact rfl, value_eq_exact rfl, exact_neg, EReal.coe_neg]

/-- **A packed sum that is a number is the one nearest to the exact sum.** -/
theorem roundsTo_pack_add {u v : UnpackedFloat} (hu : Settled u) (hv : Settled v)
    (h : (Float.ofModel (.pack (.add Format.binary64 u v))).isNaN = false) :
    RoundsTo (.ofModel (.pack (.add Format.binary64 u v))) (value u + value v) := by
  cases hufin : u.isFinite with
  | true =>
      cases hvfin : v.isFinite with
      | true =>
          rw [value_eq_exact hufin, value_eq_exact hvfin, ← EReal.coe_add]
          exact (rounds_pack (isNearest_add hu hv hufin hvfin)).roundsTo
      | false =>
          cases v with
          | notANumber =>
              cases u <;> cases isNaN_pack_notANumber.symm.trans h
          | infinity sign =>
              rw [add_infinity sign hufin, add_comm, value_infinity_add sign hufin]
              exact roundsTo_pack_infinity sign
          | zero sign => cases hvfin
          | finite sign m e hm => cases hvfin
  | false =>
      cases u with
      | notANumber => cases isNaN_pack_notANumber.symm.trans h
      | infinity sign =>
          cases hvfin : v.isFinite with
          | true =>
              rw [infinity_add sign hvfin, value_infinity_add sign hvfin]
              exact roundsTo_pack_infinity sign
          | false =>
              cases v with
              | notANumber => cases isNaN_pack_notANumber.symm.trans h
              | infinity sign' =>
                  -- like infinities add up, unlike ones are no number
                  cases sign <;> cases sign'
                  · exact roundsTo_pack_infinity .negative
                  · cases isNaN_pack_notANumber.symm.trans h
                  · cases isNaN_pack_notANumber.symm.trans h
                  · exact roundsTo_pack_infinity .positive
              | zero sign' => cases hvfin
              | finite sign' m e hm => cases hvfin
      | zero sign => cases hufin
      | finite sign m e hm => cases hufin

/-- **A sum that is a number is the one nearest to the exact sum.** -/
theorem roundsTo_add (h : (x + y).isNaN = false) : RoundsTo (x + y) (extended x + extended y) :=
  roundsTo_pack_add (settled_toModel x) (settled_toModel y) h

/-- **A difference that is a number is the one nearest to the exact difference.** -/
theorem roundsTo_sub (h : (x - y).isNaN = false) : RoundsTo (x - y) (extended x - extended y) := by
  change (Float.ofModel (.pack (.sub _ x.toModel.unpack y.toModel.unpack))).isNaN = false at h
  show RoundsTo (.ofModel (.pack (.sub _ x.toModel.unpack y.toModel.unpack)))
    (value x.toModel.unpack - value y.toModel.unpack)
  rw [unpackedSub_eq] at h ⊢
  rw [sub_eq_add_neg, ← value_neg]
  exact roundsTo_pack_add (settled_toModel x) (settled_toModel y).neg h

/-! ### Products -/

/-- **A number times a positive one that is finite is the one nearest to the exact product.** -/
theorem roundsTo_mul (hx : x.isNaN = false) (hy : y.isFinite = true) (hpos : 0 < real y) :
    RoundsTo (x * y) (extended x * real y) := by
  cases hxfin : x.isFinite with
  | true =>
      rw [extended_eq_real hxfin, ← EReal.coe_mul]
      exact (rounds_mul hxfin hy).roundsTo
  | false =>
      obtain ⟨sign, hu⟩ := unpack_of_not_isFinite hx hxfin
      have hexact : extended x * real y = value (.infinity sign) := by
        rw [extended, hu]
        cases sign
        · exact EReal.bot_mul_coe_of_pos hpos
        · exact EReal.top_mul_coe_of_pos hpos
      have hproduct : UnpackedFloat.mul Format.binary64 (.infinity sign) y.toModel.unpack =
          .infinity sign := by
        change y.toModel.unpack.isFinite = true at hy
        unfold real at hpos
        cases hv : y.toModel.unpack with
        | notANumber => rw [hv] at hy; cases hy
        | infinity sign' => rw [hv] at hy; cases hy
        | zero sign' => rw [hv, exact_zero] at hpos; exact absurd hpos (lt_irrefl 0)
        | finite sign' m e hm =>
            rw [hv] at hpos
            cases sign' with
            | positive => cases sign <;> rfl
            | negative =>
                have hneg := value_negative_neg hm e
                rw [value_eq_exact (u := .finite .negative m e hm) rfl] at hneg
                exact absurd (EReal.coe_lt_coe_iff.mp hneg) hpos.not_gt
      rw [hexact]
      show RoundsTo (.ofModel (.pack (.mul _ x.toModel.unpack y.toModel.unpack))) _
      rw [hu, hproduct]
      exact roundsTo_pack_infinity sign

/-! ### Order and signs -/

/-- Adding to a finite float keeps the order. -/
theorem add_le_add_finite (hx : x.isFinite = true) (h : y ≤ z) : x + y ≤ x + z := by
  obtain ⟨hy, hz, hle⟩ := le_iff.mp h
  exact (roundsTo_add (isNaN_add hx hy)).mono (roundsTo_add (isNaN_add hx hz)) (by gcongr)

/-- Taking the same finite float off does so too. -/
theorem sub_le_sub_finite (h : x ≤ y) (hz : z.isFinite = true) : x - z ≤ y - z := by
  obtain ⟨hx, hy, hle⟩ := le_iff.mp h
  have hnumber := isNaN_of_isFinite hz
  refine (roundsTo_sub (isNaN_sub hx hnumber (.inr hz))).mono
    (roundsTo_sub (isNaN_sub hy hnumber (.inr hz))) ?_
  exact EReal.sub_le_sub hle le_rfl

/-- And so does multiplying by a positive finite one. -/
theorem mul_le_mul_finite (h : x ≤ y) (hz : z.isFinite = true) (hpos : 0 < real z) :
    x * z ≤ y * z := by
  obtain ⟨hx, hy, hle⟩ := le_iff.mp h
  refine (roundsTo_mul hx hz hpos).mono (roundsTo_mul hy hz hpos) ?_
  exact mul_le_mul_of_nonneg_right hle (EReal.coe_nonneg.mpr hpos.le)

theorem sub_nonpos_of_le (h : (x - y).isNaN = false) (hle : x ≤ y) : x - y ≤ 0 := by
  refine (roundsTo_sub h).mono (roundsTo_self (by decide)) ?_
  rw [extended_zero]
  exact EReal.sub_nonpos.mpr (le_iff.mp hle).2.2

theorem sub_nonneg_of_le (h : (x - y).isNaN = false) (hle : y ≤ x) : 0 ≤ x - y := by
  obtain ⟨hy, hx, hle'⟩ := le_iff.mp hle
  -- not both are the same infinity
  have hunlike : ∀ r, r = ⊤ ∨ r = ⊥ → extended x ≠ r ∨ extended y ≠ r := by
    intro r hr
    by_contra! hsame
    have hxfin : x.isFinite = false := by
      refine eq_false_of_ne_true fun hfin => ?_
      obtain ⟨-, hbot, htop⟩ := isFinite_iff.mp hfin
      obtain rfl | rfl := hr
      · exact htop.ne hsame.1
      · exact hbot.ne' hsame.1
    rw [(isNaN_sub_iff hx hy).mpr ⟨hxfin, hsame.1.trans hsame.2.symm⟩] at h
    cases h
  refine (roundsTo_self (by decide)).mono (roundsTo_sub h) ?_
  rw [extended_zero, EReal.sub_nonneg (hunlike ⊤ (.inl rfl)) (hunlike ⊥ (.inr rfl))]
  exact hle'

/-- What is taken off something that is not negative leaves its negation at least. -/
theorem neg_le_sub (hx : 0 ≤ x) {q : ℝ} (hy : Denotes y q) : -y ≤ x - y := by
  obtain ⟨-, hnan, hle⟩ := le_iff.mp hx
  rw [extended_zero] at hle
  have hneg := hy.neg
  have hnumber := isNaN_sub hnan (isNaN_of_isFinite hy.isFinite_eq) (.inr hy.isFinite_eq)
  refine (roundsTo_self (isNaN_of_isFinite hneg.isFinite_eq)).mono (roundsTo_sub hnumber) ?_
  rw [extended_eq_real hneg.isFinite_eq, hneg.real_eq, extended_eq_real hy.isFinite_eq, hy.real_eq,
    sub_eq_add_neg, EReal.coe_neg]
  exact le_add_of_nonneg_left hle

theorem mul_nonpos_of_nonpos (hx : x ≤ 0) (hy : y.isFinite = true) (hpos : 0 < real y) :
    x * y ≤ 0 := by
  obtain ⟨hnan, -, hle⟩ := le_iff.mp hx
  rw [extended_zero] at hle
  refine (roundsTo_mul hnan hy hpos).mono (roundsTo_self (by decide)) ?_
  rw [extended_zero]
  exact mul_nonpos_of_nonpos_of_nonneg hle (EReal.coe_nonneg.mpr hpos.le)

theorem mul_nonneg_of_nonneg (hx : 0 ≤ x) (hy : y.isFinite = true) (hpos : 0 < real y) :
    0 ≤ x * y := by
  obtain ⟨-, hnan, hle⟩ := le_iff.mp hx
  rw [extended_zero] at hle
  refine (roundsTo_self (by decide)).mono (roundsTo_mul hnan hy hpos) ?_
  rw [extended_zero]
  exact mul_nonneg hle (EReal.coe_nonneg.mpr hpos.le)

/-- Adding what is not positive does not lead upwards. -/
theorem add_le_self (hx : x.isFinite = true) (hy : y ≤ 0) : x + y ≤ x := by
  obtain ⟨hnan, -, hle⟩ := le_iff.mp hy
  rw [extended_zero] at hle
  refine (roundsTo_add (isNaN_add hx hnan)).mono (roundsTo_self (isNaN_of_isFinite hx)) ?_
  exact add_le_of_nonpos_right hle

/-- Adding what is not negative does not lead downwards. -/
theorem le_add_self (hx : x.isFinite = true) (hy : 0 ≤ y) : x ≤ x + y := by
  obtain ⟨-, hnan, hle⟩ := le_iff.mp hy
  rw [extended_zero] at hle
  refine (roundsTo_self (isNaN_of_isFinite hx)).mono (roundsTo_add (isNaN_add hx hnan)) ?_
  exact le_add_of_nonneg_right hle

end

end HeatingPlant.Floating
