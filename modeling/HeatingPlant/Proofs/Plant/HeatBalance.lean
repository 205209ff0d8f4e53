import HeatingPlant.Proofs.Floating.Extended
import HeatingPlant.Proofs.Plant.Burst
import HeatingPlant.Proofs.Plant.Temperature

/-!
# Which way the indoor temperature moves

The building gains what the valve lets through and loses in proportion to how much warmer than the
weather it is.  Whatever is larger decides which way the indoor temperature moves, also where one of
them overflows.

## Main definitions

* `State.Held` — the indoor temperature is in the range of the model, or not a number

## Main statements

* `State.exchangeHeat_le`, `State.le_exchangeHeat` — the temperature falls where the loss is the
  larger one, and rises where the gain is
* `State.insideTemperature_tick_le` — a building without control, no colder than the weather,
  does not get warmer
* `State.le_insideTemperature_tick` — a building no warmer than the weather does not get colder
* `Settings.Reaches.held` — every temperature that a plant comes to is held
* `Status.ofTemperature_anti` — the colder it is, the more severe the status

## Design notes

No tick moves the temperature past the weather in these statements, since nothing keeps it from
doing so: they say which way it moves, and not how far.
-/

namespace HeatingPlant

open Floating

/-! ### Holding a temperature -/

namespace Thermal

variable {temperature bound : Float}

theorem hold_le_of_le (h : temperature ≤ bound) (hcold : coldest ≤ bound) :
    hold temperature ≤ bound := by
  unfold hold
  split
  · exact hcold
  · split
    · rename_i hhigh
      exact Floating.le_trans (Floating.le_of_lt hhigh) h
    · exact h

theorem le_hold_of_le (h : bound ≤ temperature) (hwarm : bound ≤ warmest) :
    bound ≤ hold temperature := by
  unfold hold
  split
  · rename_i hlow
    exact Floating.le_trans h (Floating.le_of_lt hlow)
  · split
    · exact hwarm
    · exact h

end Thermal

/-- No status is more severe than that of burst pipes. -/
theorem Status.le_burst (status : Status) : status ≤ .burst := by
  cases status <;> decide

/-- The colder it is, the more severe is the status. -/
theorem Status.ofTemperature_anti {colder warmer : Float} (h : colder ≤ warmer) :
    Status.ofTemperature warmer ≤ Status.ofTemperature colder := by
  have hmono : ∀ point, ¬colder ≤ point → ¬warmer ≤ point :=
    fun point hnot hle => hnot (Floating.le_trans h hle)
  unfold Status.ofTemperature
  by_cases hfrozen : colder ≤ Status.freezingPoint
  · rw [if_pos hfrozen]
    split_ifs <;> decide
  rw [if_neg hfrozen, if_neg (hmono _ hfrozen)]
  by_cases hcritical : colder ≤ Status.criticalPoint
  · rw [if_pos hcritical]
    split_ifs <;> decide
  rw [if_neg hcritical, if_neg (hmono _ hcritical)]
  by_cases hwarning : colder ≤ Status.warningPoint
  · rw [if_pos hwarning]
    split_ifs <;> decide
  rw [if_neg hwarning, if_neg (hmono _ hwarning)]
  decide

/-- What is not a number counts as normal. -/
theorem Status.ofTemperature_of_isNaN {temperature : Float} (h : temperature.isNaN = true) :
    Status.ofTemperature temperature = .normal := by
  have hnot : ∀ point, ¬temperature ≤ point := fun point hle => by
    rw [le_iff, h] at hle
    cases hle.1
  rw [Status.ofTemperature, if_neg (hnot _), if_neg (hnot _), if_neg (hnot _)]

/-- Time goes forward. -/
theorem Settings.Sound.real_dt_pos {settings : Settings} (h : settings.Sound) :
    0 < real settings.timing.dt := by
  have hthousand : Denotes 1000 1000 := denotes_ofNat 1000 (by norm_num)
  have hticks : 0 ≤ settings.timing.tickInterval.toFloat := by
    refine (rounds_uint64 settings.timing.tickInterval).ge (by decide) ?_
    rw [real_zero]
    exact Nat.cast_nonneg _
  have hfin := settings.timing.isFinite_tickInterval
  have hnonneg : 0 ≤ settings.timing.dt := by
    refine (rounds_div hfin hthousand.isFinite_eq (by rw [hthousand.real_eq]; norm_num)).ge
      (by decide) ?_
    rw [real_zero, hthousand.real_eq]
    exact div_nonneg ((real_nonneg hfin).mpr hticks) (by norm_num)
  exact lt_of_le_of_ne ((real_nonneg settings.timing.isFinite_dt).mpr hnonneg) h.real_dt_ne.symm

namespace State

variable {s : State} {parameters : ThermalParameters} {dt : Float}

/-! ### Gain and loss -/

/-- A building without control gains nothing. -/
theorem denotes_heatGain (hsound : parameters.Sound dt) (hdead : s.controllerRunning = false) :
    Denotes (s.heatGain parameters) 0 := by
  have hopening : s.opening = 0 := by
    rw [opening, hdead]
    rfl
  have hpower : Denotes (s.opening * parameters.maxPower) 0 := by
    rw [hopening]
    have hround := rounds_mul denotes_zero.isFinite_eq hsound.maxPower
    rw [denotes_zero.real_eq, zero_mul] at hround
    exact hround.denotes nearest_zero
  have hround := rounds_div hpower.isFinite_eq hsound.thermalMass hsound.thermalMass_pos.ne'
  rw [hpower.real_eq, zero_div] at hround
  exact hround.denotes nearest_zero

/-- A building no colder than the weather loses what is not negative. -/
theorem heatLoss_nonneg (hsound : parameters.Sound dt) (hrange : s.InRange)
    (houtside : s.outsideTemperature.isFinite = true)
    (hwarmer : s.outsideTemperature ≤ s.insideTemperature) : 0 ≤ s.heatLoss parameters := by
  obtain ⟨hround, hfin⟩ := rounds_difference hrange houtside
  have hdifference : 0 ≤ s.insideTemperature - s.outsideTemperature := by
    refine hround.ge (by decide) ?_
    rw [real_zero, sub_nonneg]
    exact (real_le_real houtside hrange.isFinite).mpr hwarmer
  refine (rounds_mul hfin hsound.lossFactor).ge (by decide) ?_
  rw [real_zero]
  exact mul_nonneg ((real_nonneg hfin).mpr hdifference) hsound.lossFactor_nonneg

/-- A building no warmer than the weather loses what is not positive. -/
theorem heatLoss_nonpos (hsound : parameters.Sound dt) (hrange : s.InRange)
    (houtside : s.outsideTemperature.isFinite = true)
    (hcolder : s.insideTemperature ≤ s.outsideTemperature) : s.heatLoss parameters ≤ 0 := by
  obtain ⟨hround, hfin⟩ := rounds_difference hrange houtside
  have hdifference : s.insideTemperature - s.outsideTemperature ≤ 0 := by
    refine hround.le (by decide) ?_
    rw [real_zero, sub_nonpos]
    exact (real_le_real hrange.isFinite houtside).mpr hcolder
  refine (rounds_mul hfin hsound.lossFactor).le (by decide) ?_
  have hdifference' := (real_le_real hfin (by decide)).mpr hdifference
  rw [real_zero] at hdifference' ⊢
  exact mul_nonpos_of_nonpos_of_nonneg hdifference' hsound.lossFactor_nonneg

/-! ### One exchange of heat -/

/-- **Where the loss is the larger one, the temperature does not rise.** -/
theorem exchangeHeat_le (hdtfin : dt.isFinite = true) (hdt : 0 < real dt) (hrange : s.InRange)
    (hbalance : (s.heatGain parameters - s.heatLoss parameters).isNaN = false)
    (hle : s.heatGain parameters ≤ s.heatLoss parameters) :
    (s.exchangeHeat parameters dt).insideTemperature ≤ s.insideTemperature := by
  have hchange : (s.heatGain parameters - s.heatLoss parameters) * dt ≤ 0 :=
    mul_nonpos_of_nonpos (sub_nonpos_of_le hbalance hle) hdtfin hdt
  rw [insideTemperature_exchangeHeat]
  exact Thermal.hold_le_of_le (add_le_self hrange.isFinite hchange) hrange.1

/-- **Where the gain is the larger one, it does not fall.** -/
theorem le_exchangeHeat (hdtfin : dt.isFinite = true) (hdt : 0 < real dt) (hrange : s.InRange)
    (hbalance : (s.heatGain parameters - s.heatLoss parameters).isNaN = false)
    (hle : s.heatLoss parameters ≤ s.heatGain parameters) :
    s.insideTemperature ≤ (s.exchangeHeat parameters dt).insideTemperature := by
  have hchange : 0 ≤ (s.heatGain parameters - s.heatLoss parameters) * dt :=
    mul_nonneg_of_nonneg (sub_nonneg_of_le hbalance hle) hdtfin hdt
  rw [insideTemperature_exchangeHeat]
  exact Thermal.le_hold_of_le (le_add_self hrange.isFinite hchange) hrange.2

/-- What is not a number stays so. -/
theorem isNaN_exchangeHeat_of_isNaN (h : s.insideTemperature.isNaN = true) :
    (s.exchangeHeat parameters dt).insideTemperature.isNaN = true := by
  have hnan := isNaN_add_of_left h ((s.heatGain parameters - s.heatLoss parameters) * dt)
  rw [insideTemperature_exchangeHeat, Thermal.hold_of_isNaN hnan]
  exact hnan

/-! ### A tick -/

theorem isNaN_tick (hpipes : s.pipesBurst = false) (h : s.insideTemperature.isNaN = true) :
    (s.tick parameters dt).1.insideTemperature.isNaN = true := by
  rw [insideTemperature_tick hpipes]
  exact isNaN_exchangeHeat_of_isNaN h

/-- **A building without control, no colder than the weather, does not get warmer.** -/
theorem insideTemperature_tick_le (hsound : parameters.Sound dt) (hdt : 0 < real dt)
    (hrange : s.InRange) (houtside : s.outsideTemperature.isFinite = true)
    (hpipes : s.pipesBurst = false) (hdead : s.controllerRunning = false)
    (hwarmer : s.outsideTemperature ≤ s.insideTemperature) :
    (s.tick parameters dt).1.insideTemperature ≤ s.insideTemperature := by
  have hgain := denotes_heatGain (s := s.moveValve parameters dt) hsound hdead
  have hloss := heatLoss_nonneg (s := s.moveValve parameters dt) hsound hrange houtside hwarmer
  have hle := le_iff.mp hloss
  rw [extended_zero] at hle
  have hgain' : (s.moveValve parameters dt).heatGain parameters ≤
      (s.moveValve parameters dt).heatLoss parameters := by
    refine le_iff.mpr ⟨isNaN_of_isFinite hgain.isFinite_eq, hle.2.1, ?_⟩
    rw [extended_eq_real hgain.isFinite_eq, hgain.real_eq, EReal.coe_zero]
    exact hle.2.2
  have hbalance := isNaN_sub (isNaN_of_isFinite hgain.isFinite_eq) hle.2.1 (.inl hgain.isFinite_eq)
  rw [insideTemperature_tick hpipes]
  exact exchangeHeat_le (s := s.moveValve parameters dt) hsound.dt_isFinite hdt hrange
    hbalance hgain'

/-- **A building no warmer than the weather does not get colder.** -/
theorem le_insideTemperature_tick (hsound : parameters.Sound dt) (hdt : 0 < real dt)
    (hrange : s.InRange) (houtside : s.outsideTemperature.isFinite = true)
    (hpipes : s.pipesBurst = false) (hcolder : s.insideTemperature ≤ s.outsideTemperature) :
    s.insideTemperature ≤ (s.tick parameters dt).1.insideTemperature := by
  have hvalve : (s.moveValve parameters dt).valvePosition ≤ Valve.fullyOpen := Std.min_le_right
  have hgain := (heatGain_mem (s := s.moveValve parameters dt) hsound hvalve).1
  have hloss := heatLoss_nonpos (s := s.moveValve parameters dt) hsound hrange houtside hcolder
  have hbalance : ((s.moveValve parameters dt).heatGain parameters -
      (s.moveValve parameters dt).heatLoss parameters).isNaN = false := by
    refine eq_false_of_ne_true fun hnan => ?_
    have hlost := (isNaN_balance (s := s.moveValve parameters dt) hsound hvalve hrange houtside).mp
      hnan
    rw [balanceLost, Bool.and_eq_true, isUnbounded_iff (x := heatLoss _ _)] at hlost
    have hle := (le_iff.mp hloss).2.2
    rw [hlost.2, extended_zero] at hle
    exact absurd hle (not_le.mpr EReal.zero_lt_top)
  rw [insideTemperature_tick hpipes]
  exact le_exchangeHeat (s := s.moveValve parameters dt) hsound.dt_isFinite hdt hrange hbalance
    (Floating.le_trans hloss hgain)

/-! ### Held temperatures -/

/-- The indoor temperature is in the range of the model, or not a number. -/
def Held (s : State) : Prop := s.insideTemperature.isNaN = true ∨ s.InRange

/-- **No event leaves the range of the model**, other than for what is not a number. -/
theorem Held.after (h : s.Held) (dynamics : Dynamics) (event : Event) :
    (s.after dynamics event).Held := by
  cases event with
  | step =>
      show (s.step dynamics).1.insideTemperature.isNaN = true ∨ (s.step dynamics).1.InRange
      rw [InRange, step_fst, insideTemperature_control]
      cases hpipes : s.pipesBurst with
      | true =>
          rw [tick_of_pipesBurst hpipes]
          exact h
      | false =>
          rw [insideTemperature_tick hpipes, insideTemperature_exchangeHeat]
          generalize (s.moveValve dynamics.thermal dynamics.dt).insideTemperature + _ = sum
          cases hnan : sum.isNaN with
          | true =>
              rw [Thermal.hold_of_isNaN hnan]
              exact .inl hnan
          | false => exact .inr (Thermal.hold_mem hnan)
  | request action =>
      show (serve s action).1.insideTemperature.isNaN = true ∨ (serve s action).1.InRange
      rw [InRange, (writtenFrom_serve s action).insideTemperature]
      exact h
  | crash =>
      show s.crash.1.insideTemperature.isNaN = true ∨ s.crash.1.InRange
      rw [InRange, insideTemperature_crash]
      exact h

end State

theorem Settings.Reaches.held {settings : Settings} {s : State} (hvalid : settings.Valid)
    (h : settings.Reaches s) : s.Held := by
  obtain ⟨events, rfl⟩ := h
  exact State.run_induction (fun s event hs => hs.after settings.dynamics event)
    (.inr hvalid.sound.insideTemperature) events

end HeatingPlant
