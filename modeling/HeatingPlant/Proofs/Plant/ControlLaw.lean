import HeatingPlant.Plant.Controller
import HeatingPlant.Proofs.Floating.Truncation

/-!
# The control law is monotone

The larger the error of the temperature, the farther the controller asks the valve to open: from
shut at the lower end of its band to fully open at the upper end, with no step back where the band
joins the saturated branches.  So it asks for less when it is warmer, and for more when more is
wanted.

## Main definitions

* `Controller.opening` — the opening that the band gives for an error, before it is cut to a
  percentage

## Main statements

* `Controller.opening_mono` — inside the band every operation keeps the order
* `Controller.command_of_le`, `Controller.command_of_ge` — the two ends of the band and beyond
* `Controller.command_mono` — all branches together
* `Controller.command_sub_mono` — the order of the temperatures behind the errors
* `Controller.law_is_monotone` — the law, and what it means for the plant

## Design notes

The band may be as narrow as floats allow, so that a quotient by its half-width may be any float;
but inside of it no quotient is larger than one, and nothing overflows.  An error that is not a
number comes from infinite temperatures alone and shuts the valve; where it is warmer, or less is
wanted, the valve is shut as well.
-/

namespace HeatingPlant

open Floating

/-- A larger percentage is a larger opening. -/
theorem Valve.ofPercent_mono {m n : ℤ} (h : m ≤ n) : ofPercent m ≤ ofPercent n := by
  have hm := toNat_ofPercent m
  have hn := toNat_ofPercent n
  unfold Number.hold at hm hn
  rw [UInt8.le_iff_toNat_le]
  omega

namespace Controller

variable {controller : Controller} {error smaller larger : Float}

/-- The opening that the band gives for an error, before it is cut to a percentage. -/
def opening (controller : Controller) (error : Float) : Float :=
  50 + 50 * (error / controller.deadband)

theorem denotes_fifty : Denotes 50 50 := denotes_ofNat 50 (by norm_num)

theorem command_of_band (hlow : ¬error < -controller.deadband)
    (hhigh : ¬controller.deadband < error) :
    controller.command error = Valve.ofPercent (Number.toInt32 (controller.opening error)) := by
  rw [command, if_neg hhigh, if_neg hlow, opening]

section

variable (hfin : controller.deadband.isFinite = true) (hpos : 0 < controller.deadband)

include hfin hpos

theorem real_deadband_pos : 0 < real controller.deadband :=
  (denotes_zero.lt_iff ⟨hfin, rfl⟩).mp hpos

/-- **Inside the band** the quotient is at most one, and with it everything is finite. -/
theorem exists_denotes_product (hlow : -controller.deadband ≤ error)
    (hhigh : error ≤ controller.deadband) :
    ∃ q p, Denotes (error / controller.deadband) q ∧
      Denotes (50 * (error / controller.deadband)) p := by
  have hband : Denotes controller.deadband (real controller.deadband) := ⟨hfin, rfl⟩
  have hwidth := real_deadband_pos hfin hpos
  have herror : error.isFinite = true :=
    isFinite_of_between hband.neg.isFinite_eq hfin hlow hhigh
  have hlow' := (hband.neg.le_iff ⟨herror, rfl⟩).mp hlow
  have hhigh' := (real_le_real herror hfin).mpr hhigh
  obtain ⟨q, hq, hqlow, hqhigh⟩ :=
    (rounds_div herror hfin hwidth.ne').exists_between denotes_one.neg denotes_one
    ((le_div_iff₀ hwidth).mpr (by linarith)) ((div_le_iff₀ hwidth).mpr (by linarith))
  obtain ⟨p, hp, -⟩ :=
    (denotes_fifty.rounds_mul hq).exists_between denotes_fifty.neg denotes_fifty
    (by linarith) (by linarith)
  exact ⟨q, p, hq, hp⟩

/-- **Inside the band every operation keeps the order.** -/
theorem opening_mono (hlow : -controller.deadband ≤ smaller) (hle : smaller ≤ larger)
    (hhigh : larger ≤ controller.deadband) :
    controller.opening smaller ≤ controller.opening larger := by
  obtain ⟨q, p, hq, hp⟩ := exists_denotes_product hfin hpos hlow (Floating.le_trans hle hhigh)
  obtain ⟨q', p', hq', hp'⟩ :=
    exists_denotes_product hfin hpos (Floating.le_trans hlow hle) hhigh
  have hneg : Denotes (-controller.deadband) (-real controller.deadband) :=
    Denotes.neg ⟨hfin, rfl⟩
  have hwidth := real_deadband_pos hfin hpos
  have hsmaller := isFinite_of_between hneg.isFinite_eq hfin hlow (Floating.le_trans hle hhigh)
  have hlarger := isFinite_of_between hneg.isFinite_eq hfin (Floating.le_trans hlow hle) hhigh
  -- quotient, product and sum are rounded in the order in which they stand
  have hquotient : q ≤ q' := by
    refine (hq.le_iff hq').mp ((rounds_div hsmaller hfin hwidth.ne').mono
      (rounds_div hlarger hfin hwidth.ne') ?_)
    exact div_le_div_of_nonneg_right ((real_le_real hsmaller hlarger).mpr hle) hwidth.le
  have hproduct : p ≤ p' := by
    refine (hp.le_iff hp').mp ((denotes_fifty.rounds_mul hq).mono (denotes_fifty.rounds_mul hq') ?_)
    linarith
  exact (denotes_fifty.rounds_add hp).mono (denotes_fifty.rounds_add hp') (by linarith)

/-- At an end of the band the opening is a whole number. -/
theorem denotes_opening {n : ℤ} (hn : n = 1 ∨ n = -1)
    (herror : Denotes error (n * real controller.deadband)) :
    Denotes (controller.opening error) (50 + 50 * n : ℤ) := by
  have hwidth := real_deadband_pos hfin hpos
  have hquotient : Denotes (error / controller.deadband) n := by
    have hround := herror.rounds_div ⟨hfin, rfl⟩ hwidth.ne'
    rw [mul_div_cancel_right₀ _ hwidth.ne'] at hround
    exact hround.denotes (nearest_intCast (by omega))
  have hproduct : Denotes (50 * (error / controller.deadband)) (50 * n : ℤ) := by
    have hround := denotes_fifty.rounds_mul hquotient
    have hexact := nearest_intCast (n := 50 * n) (by omega)
    push_cast at hexact ⊢
    exact hround.denotes hexact
  have hround := denotes_fifty.rounds_add hproduct
  have hexact := nearest_intCast (n := 50 + 50 * n) (by omega)
  push_cast at hround hexact ⊢
  exact hround.denotes hexact

/-- **At the ends of the band the valve is to be open and shut**, like beyond them. -/
theorem command_at_end {n : ℤ} (hn : n = 1 ∨ n = -1)
    (herror : Denotes error (n * real controller.deadband)) :
    controller.command error = Valve.ofPercent (50 + 50 * n) := by
  have hband : Denotes controller.deadband (real controller.deadband) := ⟨hfin, rfl⟩
  have hwidth := real_deadband_pos hfin hpos
  have hopening := denotes_opening hfin hpos hn herror
  have hlow : ¬error < -controller.deadband := by
    rw [herror.lt_iff hband.neg]
    rcases hn with rfl | rfl <;> push_cast <;> linarith
  have hhigh : ¬controller.deadband < error := by
    rw [hband.lt_iff herror]
    rcases hn with rfl | rfl <;> push_cast <;> linarith
  rw [command_of_band hlow hhigh, Number.toInt32,
    toIntWithin_of_denotes hopening (abs_lt.mpr ⟨by omega, by omega⟩),
    Number.hold_of_mem (by omega) (by omega)]

/-- **From the upper end of the band on, the valve is to be fully open.** -/
theorem command_of_ge (h : controller.deadband ≤ error) :
    controller.command error = Valve.fullyOpen := by
  by_cases hhigh : controller.deadband < error
  · exact if_pos hhigh
  have hle := Floating.le_of_not_lt (isNaN_of_isFinite hfin) (le_iff.mp h).2.1 hhigh
  have herror := isFinite_of_between hfin hfin h hle
  have hend : real error = real controller.deadband :=
    le_antisymm ((real_le_real herror hfin).mpr hle) ((real_le_real hfin herror).mpr h)
  rw [command_at_end hfin hpos (.inl rfl) ⟨herror, by rw [hend, Int.cast_one, one_mul]⟩]
  rfl

/-- **Up to the lower end of the band, it is to be shut.** -/
theorem command_of_le (h : error ≤ -controller.deadband) : controller.command error = 0 := by
  have hneg : Denotes (-controller.deadband) (-real controller.deadband) :=
    Denotes.neg ⟨hfin, rfl⟩
  have hwidth := real_deadband_pos hfin hpos
  have hbelow : error ≤ controller.deadband :=
    Floating.le_trans h ((hneg.le_iff ⟨hfin, rfl⟩).mpr (by linarith))
  by_cases hlow : error < -controller.deadband
  · rw [command, if_neg (Floating.not_lt_of_le hbelow), if_pos hlow]
  have hge := Floating.le_of_not_lt (le_iff.mp h).1 (isNaN_of_isFinite hneg.isFinite_eq) hlow
  have herror := isFinite_of_between hneg.isFinite_eq hfin hge hbelow
  have hend : real error = -real controller.deadband :=
    le_antisymm (((Denotes.mk herror rfl).le_iff hneg).mp h)
      ((hneg.le_iff ⟨herror, rfl⟩).mp hge)
  rw [command_at_end hfin hpos (.inr rfl) ⟨herror, by rw [hend]; push_cast; ring⟩]
  rfl

/-- **The law is monotone**, in all of its branches. -/
theorem command_mono (h : smaller ≤ larger) :
    controller.command smaller ≤ controller.command larger := by
  obtain ⟨hsmaller, hlarger, -⟩ := le_iff.mp h
  have hband := isNaN_of_isFinite hfin
  by_cases hhigh : controller.deadband < larger
  · rw [command_of_ge hfin hpos (Floating.le_of_lt hhigh)]
    exact command_le controller smaller
  by_cases hlow : smaller < -controller.deadband
  · rw [command_of_le hfin hpos (Floating.le_of_lt hlow)]
    exact UInt8.zero_le
  -- neither of them is beyond the band
  have hsmaller' := Floating.le_of_not_lt hsmaller ((isNaN_neg _).trans hband) hlow
  have hlarger' := Floating.le_of_not_lt hband hlarger hhigh
  have hopening := opening_mono hfin hpos hsmaller' h hlarger'
  have hlow' := Floating.not_lt_of_le (Floating.le_trans hsmaller' h)
  have hhigh' := Floating.not_lt_of_le (Floating.le_trans h hlarger')
  rw [command_of_band hlow hhigh', command_of_band hlow' hhigh]
  exact Valve.ofPercent_mono (toIntWithin_mono _ _ hopening)

/-! ### Temperatures -/

omit hfin hpos in
/-- An error that is not a number shuts the valve. -/
theorem command_of_isNaN (h : error.isNaN = true) : controller.command error = 0 := by
  have hopening : (controller.opening error).isNaN = true :=
    isNaN_add_of_right _ (isNaN_mul_of_right _ (isNaN_div_of_left h _))
  have hcast : Number.toInt32 (controller.opening error) = 0 := by
    have hword : (controller.opening error).toUInt64 = 0 := by
      show UInt64.ofNatClamp ((controller.opening error).toModel.unpack.toInt _ _).toNat = 0
      rw [unpack_of_isNaN hopening]
      rfl
    rw [Number.toInt32, Number.toIntWithin, if_neg (Floating.not_lt_of_isNaN (.inl hopening)),
      hword]
    rfl
  rw [command_of_band (Floating.not_lt_of_isNaN (.inl h)) (Floating.not_lt_of_isNaN (.inr h)),
    hcast]
  rfl

/-- A setpoint infinitely far below the temperature shuts the valve, whether or not the error is a
number. -/
theorem command_sub_of_bot {setpoint temperature : Float}
    (h : extended setpoint - extended temperature = ⊥) :
    controller.command (setpoint - temperature) = 0 := by
  cases hnan : (setpoint - temperature).isNaN with
  | true => exact command_of_isNaN hnan
  | false =>
      have hround := roundsTo_sub hnan
      have hneg : Denotes (-controller.deadband) (-real controller.deadband) :=
        Denotes.neg ⟨hfin, rfl⟩
      refine command_of_le hfin hpos (le_iff.mpr ⟨hnan, isNaN_of_isFinite hneg.isFinite_eq, ?_⟩)
      rw [hround.extended_eq, h]
      exact bot_le

/-- **A higher setpoint and a colder building never ask for less**, infinities included. -/
theorem command_sub_mono {low high cold warm : Float} (hsetpoint : low ≤ high)
    (htemperature : cold ≤ warm) :
    controller.command (low - warm) ≤ controller.command (high - cold) := by
  obtain ⟨hlow, hhigh, hwanted⟩ := le_iff.mp hsetpoint
  obtain ⟨hcold, hwarm, hfelt⟩ := le_iff.mp htemperature
  have hshut : extended low - extended warm = ⊥ →
      controller.command (low - warm) ≤ controller.command (high - cold) := by
    intro hbot
    rw [command_sub_of_bot hfin hpos hbot]
    exact UInt8.zero_le
  cases hnan : (low - warm).isNaN with
  | true =>
      rw [command_of_isNaN hnan]
      exact UInt8.zero_le
  | false =>
      cases hnan' : (high - cold).isNaN with
      | false =>
          refine command_mono hfin hpos ((roundsTo_sub hnan).mono (roundsTo_sub hnan') ?_)
          exact EReal.sub_le_sub hwanted hfelt
      | true =>
          -- setpoint and temperature are the same infinity, and so are the lower or the warmer one
          obtain ⟨hinfinite, hsame⟩ := (isNaN_sub_iff hhigh hcold).mp hnan'
          apply hshut
          rcases extended_of_not_isFinite hhigh hinfinite with htop | hbot
          · rw [hsame] at htop
            rw [htop, top_le_iff] at hfelt
            rw [hfelt]
            exact EReal.sub_top _
          · rw [hbot, le_bot_iff] at hwanted
            rw [hwanted]
            exact EReal.bot_sub _

end

/-- **The control law is a monotone map onto the percentages.**  With a band of positive finite
width, whatever the width, a larger error never makes the controller ask for less: from fully shut
up to the lower end of the band to fully open from its upper end on.  So a plant under control
whose building is warmer, or whose setpoint is lower, is never asked to open the valve wider. -/
theorem law_is_monotone {controller : Controller} (hfin : controller.deadband.isFinite = true)
    (hpos : 0 < controller.deadband) :
    (∀ smaller larger : Float, smaller ≤ larger →
        controller.command smaller ≤ controller.command larger ∧
          controller.command larger ≤ 100) ∧
      (∀ error : Float, controller.deadband ≤ error → controller.command error = 100) ∧
      (∀ error : Float, error ≤ -controller.deadband → controller.command error = 0) ∧
      (∀ s t : State, s.underControl = true → t.underControl = true →
        s.setpoint = t.setpoint → s.insideTemperature ≤ t.insideTemperature →
          (t.control controller).valveCommand ≤ (s.control controller).valveCommand) ∧
      ∀ s t : State, s.underControl = true → t.underControl = true →
        s.insideTemperature = t.insideTemperature → s.setpoint ≤ t.setpoint →
          (s.control controller).valveCommand ≤ (t.control controller).valveCommand := by
  have hcommand : ∀ s : State, s.underControl = true →
      (s.control controller).valveCommand =
        controller.command (s.setpoint - s.insideTemperature) := by
    intro s hs
    rw [State.control, if_pos hs]
  refine ⟨fun smaller larger h => ⟨command_mono hfin hpos h, command_le controller larger⟩,
    fun error h => command_of_ge hfin hpos h, fun error h => command_of_le hfin hpos h, ?_, ?_⟩
  · intro s t hs ht hsame h
    rw [hcommand s hs, hcommand t ht, hsame]
    cases hnan : t.setpoint.isNaN with
    | false => exact command_sub_mono hfin hpos (Floating.le_refl hnan) h
    | true =>
        rw [command_of_isNaN (isNaN_sub_of_left hnan _)]
        exact UInt8.zero_le
  · intro s t hs ht hsame h
    rw [hcommand s hs, hcommand t ht, hsame]
    cases hnan : t.insideTemperature.isNaN with
    | false => exact command_sub_mono hfin hpos h (Floating.le_refl hnan)
    | true =>
        rw [command_of_isNaN (isNaN_sub_of_right _ hnan)]
        exact UInt8.zero_le

/-- The narrowest band that there is: the least float on either side of zero is its end, and between
them the valve is to be half open; a building of infinite heat is not to be heated,
and one of which infinite cold is wanted neither. -/
theorem law_is_monotone_narrow :
    let narrow : Controller := ⟨Float.ofBits 1⟩
    let hot : State := { State.initial with insideTemperature := 1 / 0 }
    let thrifty : State := { State.initial with setpoint := -1 / 0 }
    (narrow.deadband.isFinite = true ∧ 0 < narrow.deadband) ∧
      ((0 : Float) ≤ Float.ofBits 1 ∧ narrow.command 0 = 50 ∧
        narrow.command 0 ≤ narrow.command (Float.ofBits 1)) ∧
      (narrow.deadband ≤ Float.ofBits 1 ∧ narrow.command (Float.ofBits 1) = 100) ∧
      (-Float.ofBits 1 ≤ -narrow.deadband ∧ narrow.command (-Float.ofBits 1) = 0) ∧
      (State.initial.underControl = true ∧ hot.underControl = true ∧
        State.initial.insideTemperature ≤ hot.insideTemperature ∧
        (hot.control narrow).valveCommand ≤ (State.initial.control narrow).valveCommand) ∧
      (thrifty.underControl = true ∧ thrifty.setpoint ≤ State.initial.setpoint ∧
        (thrifty.control narrow).valveCommand ≤ (State.initial.control narrow).valveCommand) := by
  intro narrow hot thrifty
  have hfin : narrow.deadband.isFinite = true := by decide
  have hpos : 0 < narrow.deadband := by decide
  obtain ⟨hmono, hopen, hshut, hwarmer, hwanted⟩ := law_is_monotone hfin hpos
  refine ⟨⟨hfin, hpos⟩, ⟨by decide, by decide, (hmono _ _ (by decide)).1⟩,
    ⟨by decide, hopen _ (by decide)⟩, ⟨by decide, hshut _ (by decide)⟩,
    ⟨by decide, by decide, by decide, ?_⟩, ⟨by decide, by decide, ?_⟩⟩
  · exact hwarmer State.initial hot (by decide) (by decide) rfl (by decide)
  · exact hwanted thrifty State.initial (by decide) (by decide) rfl (by decide)

end Controller

end HeatingPlant
