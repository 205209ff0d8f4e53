import HeatingPlant.Proofs.Plant.Bounds

/-!
# The indoor temperature

The indoor temperature is held inside the range of the model after every tick.  What is not a number
slips through, and valid settings do not rule it out: they bound each constant of the building on
its own, but gain and loss are products and quotients of them.  This file says exactly when the
temperature is lost.

## Main definitions

* `State.heatGain`, `State.heatLoss` — the two sides of the heat balance
* `State.balanceLost` — both of them are infinite, so that their difference is not a number
* `ThermalParameters.Sound` — what valid settings promise about the building, as real numbers
* `Settings.losesBalance` — the next step of the plant would lose the balance

## Main statements

* `State.isNaN_balance` — the balance is not a number exactly if gain and loss are both infinite
* `State.inRange_exchangeHeat`, `State.isNaN_exchangeHeat` — an exchange of heat keeps the range
  as long as the balance is a number, and loses the temperature otherwise
* `Settings.temperature_in_range_iff` — a plant with valid settings stays in range exactly if it
  never comes to a state whose next step loses the balance
* `Settings.inRange_of_bounded` — two bounds on the settings, either of which rules this out

## Design notes

The order of floats is carried over to the real numbers that they denote, where each bound is one
inequality, and back by the monotonicity of rounding.
-/

namespace HeatingPlant

open Floating

/-! ### Holding a temperature -/

namespace Thermal

/-- A number is held inside the range of the model. -/
theorem hold_mem {temperature : Float} (h : temperature.isNaN = false) :
    coldest ≤ hold temperature ∧ hold temperature ≤ warmest := by
  have hcold : coldest.isNaN = false := by decide
  have hwarm : warmest.isNaN = false := by decide
  unfold hold
  split
  · decide
  · rename_i hge
    split
    · decide
    · rename_i hle
      exact ⟨Floating.le_of_not_lt h hcold hge, Floating.le_of_not_lt hwarm h hle⟩

/-- What is not a number is not held. -/
theorem hold_of_isNaN {temperature : Float} (h : temperature.isNaN = true) :
    hold temperature = temperature := by
  have hlow : ¬temperature < coldest := fun hlt => by
    rw [lt_iff, h] at hlt
    cases hlt.1
  have hhigh : ¬warmest < temperature := fun hlt => by
    rw [lt_iff, h] at hlt
    cases hlt.2.1
  rw [hold, if_neg hlow, if_neg hhigh]

end Thermal

/-! ### The heat balance -/

/-- Whether a quantity is larger than every number. -/
def isUnbounded (x : Float) : Bool := x.isInf && 0 < x

theorem isUnbounded_iff {x : Float} : isUnbounded x = true ↔ extended x = ⊤ := by
  rw [extended_eq_top_iff, isUnbounded, Bool.and_eq_true, decide_eq_true_iff]

namespace State

variable {s : State} {parameters : ThermalParameters} {dt : Float}

/-- Heat lost per second, in degrees. -/
def heatLoss (parameters : ThermalParameters) (s : State) : Float :=
  (s.insideTemperature - s.outsideTemperature) * parameters.lossFactor

/-- Heat gained per second, in degrees. -/
def heatGain (parameters : ThermalParameters) (s : State) : Float :=
  s.opening * parameters.maxPower / parameters.thermalMass

theorem insideTemperature_exchangeHeat (s : State) :
    (s.exchangeHeat parameters dt).insideTemperature =
      Thermal.hold
        (s.insideTemperature + (s.heatGain parameters - s.heatLoss parameters) * dt) := rfl

/-- Whether gain and loss are both infinite. -/
def balanceLost (parameters : ThermalParameters) (s : State) : Bool :=
  isUnbounded (s.heatGain parameters) && isUnbounded (s.heatLoss parameters)

/-- The indoor temperature is in the range of the model. -/
def InRange (s : State) : Prop :=
  Thermal.coldest ≤ s.insideTemperature ∧ s.insideTemperature ≤ Thermal.warmest

theorem InRange.isFinite (h : s.InRange) : s.insideTemperature.isFinite = true :=
  isFinite_of_between (by decide) (by decide) h.1 h.2

/-- The opening of a valve in bounds is a part of the whole. -/
theorem opening_mem (h : s.valvePosition ≤ Valve.fullyOpen) :
    0 ≤ s.opening ∧ s.opening ≤ 1 := by
  unfold opening
  split
  · have hposition := denotes_uint8 s.valvePosition
    have hhundred : Denotes 100 100 := denotes_ofNat 100 (by norm_num)
    have hround : Rounds (s.valvePosition.toFloat / 100) (s.valvePosition.toNat / 100) := by
      have := rounds_div hposition.isFinite_eq hhundred.isFinite_eq
        (by rw [hhundred.real_eq]; norm_num)
      rwa [hposition.real_eq, hhundred.real_eq] at this
    have hle : (s.valvePosition.toNat : ℝ) ≤ 100 := by
      exact_mod_cast UInt8.le_iff_toNat_le.mp h
    constructor
    · refine hround.ge denotes_zero.isFinite_eq ?_
      rw [denotes_zero.real_eq]
      positivity
    · refine hround.le denotes_one.isFinite_eq ?_
      rw [denotes_one.real_eq]
      linarith
  · decide

end State

/-! ### Sound buildings -/

/-- What sound settings promise about the building and the length of a tick. -/
structure ThermalParameters.Sound (parameters : ThermalParameters) (dt : Float) : Prop where
  /-- The loss factor is finite. -/
  lossFactor : parameters.lossFactor.isFinite = true
  /-- Heat flows from warm to cold. -/
  lossFactor_nonneg : 0 ≤ real parameters.lossFactor
  /-- The power is finite. -/
  maxPower : parameters.maxPower.isFinite = true
  /-- The valve does not cool. -/
  maxPower_nonneg : 0 ≤ real parameters.maxPower
  /-- The thermal mass is finite. -/
  thermalMass : parameters.thermalMass.isFinite = true
  /-- The building has a mass. -/
  thermalMass_pos : 0 < real parameters.thermalMass
  /-- The tick is finite. -/
  dt_isFinite : dt.isFinite = true
  /-- Time passes. -/
  dt_ne : real dt ≠ 0

theorem real_zero : real 0 = 0 := by
  simpa using (denotes_ofNat 0 (by norm_num)).real_eq

theorem real_nonneg {x : Float} (hx : x.isFinite = true) : 0 ≤ real x ↔ 0 ≤ x := by
  rw [← real_le_real (by decide) hx, real_zero]

theorem TimerSettings.isFinite_tickInterval (timing : TimerSettings) :
    timing.tickInterval.toFloat.isFinite = true := by
  have hc : (2 : ℝ) ^ 12 ≤ coarsest := by
    unfold coarsest
    exact_mod_cast zpow_le_zpow_right₀ (one_le_two (α := ℝ))
      (show (12 : ℤ) ≤ 971 by norm_num)
  have hlt : (timing.tickInterval.toNat : ℝ) < 2 ^ 64 := by
    exact_mod_cast timing.tickInterval.toNat_lt
  refine (rounds_uint64 timing.tickInterval).isFinite ?_
  rw [abs_of_nonneg (by positivity)]
  linarith

/-- The length of a tick is a finite quotient. -/
theorem TimerSettings.isFinite_dt (timing : TimerSettings) : timing.dt.isFinite = true := by
  have hc : 0 < coarsest := coarsest_pos
  have hthousand : Denotes 1000 1000 := denotes_ofNat 1000 (by norm_num)
  have hticks := timing.isFinite_tickInterval
  have hround := rounds_div hticks hthousand.isFinite_eq (by rw [hthousand.real_eq]; norm_num)
  rw [hthousand.real_eq] at hround
  refine Rounds.isFinite hround ?_
  have hbound := abs_real_le hticks
  rw [abs_div, abs_of_pos (show (0 : ℝ) < 1000 by norm_num), div_lt_iff₀ (by norm_num)]
  linarith

/-- A valve that travels needs time for it. -/
theorem Settings.Sound.real_dt_ne {settings : Settings} (h : settings.Sound) :
    real settings.timing.dt ≠ 0 := by
  intro hzero
  -- without time the valve would travel zero percent per tick, which is less than one
  have hround := rounds_mul h.slewRate.1 settings.timing.isFinite_dt
  rw [hzero, mul_zero] at hround
  refine h.travel (lt_iff.mpr ⟨hround.isNaN_eq, by decide, ?_⟩)
  rw [hround.extended_eq, nearest_zero, extended_eq_real denotes_one.isFinite_eq,
    denotes_one.real_eq]
  exact EReal.coe_pos.mpr one_pos

theorem Settings.Sound.thermalSound {settings : Settings} (h : settings.Sound) :
    settings.thermal.Sound settings.timing.dt where
  lossFactor := h.lossFactor.1
  lossFactor_nonneg := (real_nonneg h.lossFactor.1).mpr h.lossFactor.2
  maxPower := h.maxPower.1
  maxPower_nonneg := (real_nonneg h.maxPower.1).mpr h.maxPower.2
  thermalMass := h.thermalMass.1
  thermalMass_pos := by
    have hpos := (lt_iff.mp h.thermalMass.2).2.2
    rw [extended_zero, extended_eq_real h.thermalMass.1] at hpos
    exact EReal.coe_pos.mp hpos
  dt_isFinite := settings.timing.isFinite_dt
  dt_ne := h.real_dt_ne

/-! ### One exchange of heat -/

namespace State

variable {s : State} {parameters : ThermalParameters} {dt : Float}

/-- The delivered power lies between none and the largest. -/
theorem power_mem (hsound : parameters.Sound dt) (hvalve : s.valvePosition ≤ Valve.fullyOpen) :
    (s.opening * parameters.maxPower).isFinite = true ∧
      0 ≤ real (s.opening * parameters.maxPower) ∧
      real (s.opening * parameters.maxPower) ≤ real parameters.maxPower := by
  obtain ⟨hlow, hhigh⟩ := opening_mem hvalve
  have hfin : s.opening.isFinite = true := isFinite_of_between (by decide) (by decide) hlow hhigh
  have hround := rounds_mul hfin hsound.maxPower
  have hlow' : 0 ≤ real s.opening := (real_nonneg hfin).mpr hlow
  have hhigh' : real s.opening ≤ 1 := by
    rw [← denotes_one.real_eq]
    exact (real_le_real hfin denotes_one.isFinite_eq).mpr hhigh
  have hzero : (0 : Float) ≤ s.opening * parameters.maxPower := by
    refine hround.ge (by decide) ?_
    rw [real_zero]
    exact mul_nonneg hlow' hsound.maxPower_nonneg
  have hpower : s.opening * parameters.maxPower ≤ parameters.maxPower :=
    hround.le hsound.maxPower (mul_le_of_le_one_left hsound.maxPower_nonneg hhigh')
  have hpowerfin : (s.opening * parameters.maxPower).isFinite = true :=
    isFinite_of_between (by decide) hsound.maxPower hzero hpower
  exact ⟨hpowerfin, (real_nonneg hpowerfin).mpr hzero,
    (real_le_real hpowerfin hsound.maxPower).mpr hpower⟩

/-- The gain is a number, at least zero and at most that of a fully open valve. -/
theorem heatGain_mem (hsound : parameters.Sound dt) (hvalve : s.valvePosition ≤ Valve.fullyOpen) :
    0 ≤ s.heatGain parameters ∧
      s.heatGain parameters ≤ parameters.maxPower / parameters.thermalMass := by
  obtain ⟨hfin, hlow, hhigh⟩ := power_mem hsound hvalve
  have hmass := hsound.thermalMass_pos
  have hround := rounds_div hfin hsound.thermalMass hmass.ne'
  constructor
  · refine hround.ge (by decide) ?_
    rw [real_zero]
    positivity
  · refine hround.mono (rounds_div hsound.maxPower hsound.thermalMass hmass.ne') ?_
    gcongr

/-- The difference of two temperatures is finite, whatever the weather. -/
theorem rounds_difference {inside outside : Float}
    (hinside : Thermal.coldest ≤ inside ∧ inside ≤ Thermal.warmest)
    (houtside : outside.isFinite = true) :
    Rounds (inside - outside) (real inside - real outside) ∧
      (inside - outside).isFinite = true := by
  have hc : (2 : ℝ) ^ 7 ≤ coarsest := by
    unfold coarsest
    exact_mod_cast zpow_le_zpow_right₀ (one_le_two (α := ℝ))
      (show (7 : ℤ) ≤ 971 by norm_num)
  have hwarm : Denotes Thermal.warmest 50 := denotes_ofNat 50 (by norm_num)
  have hcold : Denotes Thermal.coldest (-30) := Denotes.neg (denotes_ofNat 30 (by norm_num))
  have hfin := isFinite_of_between hcold.isFinite_eq hwarm.isFinite_eq hinside.1 hinside.2
  have hlow := (real_le_real hcold.isFinite_eq hfin).mpr hinside.1
  have hhigh := (real_le_real hfin hwarm.isFinite_eq).mpr hinside.2
  rw [hcold.real_eq] at hlow
  rw [hwarm.real_eq] at hhigh
  obtain ⟨hout, hout'⟩ := abs_le.mp (abs_real_le houtside)
  have hround := rounds_sub hfin houtside
  -- fifty degrees are less than half a last place of the largest number
  refine ⟨hround, hround.isFinite ?_⟩
  rw [abs_lt]
  constructor <;> linarith

/-- The loss is a number, at most that of the warmest building. -/
theorem heatLoss_le (hsound : parameters.Sound dt) (hrange : s.InRange)
    (houtside : s.outsideTemperature.isFinite = true) :
    s.heatLoss parameters ≤ (Thermal.warmest - s.outsideTemperature) * parameters.lossFactor := by
  obtain ⟨hround, hfin⟩ := rounds_difference hrange houtside
  have hwarmest : Thermal.coldest ≤ Thermal.warmest ∧ Thermal.warmest ≤ Thermal.warmest :=
    ⟨by decide, by decide⟩
  obtain ⟨hround', hfin'⟩ := rounds_difference hwarmest houtside
  have hle :
    s.insideTemperature - s.outsideTemperature ≤ Thermal.warmest - s.outsideTemperature :=
    hround.mono hround' (sub_le_sub_right
      ((real_le_real hrange.isFinite (by decide)).mpr hrange.2) _)
  refine (rounds_mul hfin hsound.lossFactor).mono (rounds_mul hfin' hsound.lossFactor) ?_
  exact mul_le_mul_of_nonneg_right ((real_le_real hfin hfin').mpr hle) hsound.lossFactor_nonneg

/-- **The balance of gain and loss is not a number exactly if both are infinite.** -/
theorem isNaN_balance (hsound : parameters.Sound dt) (hvalve : s.valvePosition ≤ Valve.fullyOpen)
    (hrange : s.InRange) (houtside : s.outsideTemperature.isFinite = true) :
    (s.heatGain parameters - s.heatLoss parameters).isNaN = true ↔
      s.balanceLost parameters = true := by
  obtain ⟨-, hgain, hpos⟩ := le_iff.mp (heatGain_mem hsound hvalve).1
  have hloss := (le_iff.mp (heatLoss_le hsound hrange houtside)).1
  rw [extended_zero] at hpos
  rw [isNaN_sub_iff hgain hloss, balanceLost, Bool.and_eq_true, isUnbounded_iff, isUnbounded_iff]
  constructor
  · rintro ⟨hfin, heq⟩
    -- a gain that is not finite is not the negative infinity either
    have htop : extended (s.heatGain parameters) = ⊤ := by
      by_contra hne
      have := isFinite_iff.mpr
        ⟨hgain, EReal.bot_lt_zero.trans_le hpos, lt_top_iff_ne_top.mpr hne⟩
      rw [hfin] at this
      cases this
    exact ⟨htop, heq ▸ htop⟩
  · rintro ⟨hgaintop, hlosstop⟩
    refine ⟨eq_false_of_ne_true fun hfin => ?_, hgaintop.trans hlosstop.symm⟩
    exact (isFinite_iff.mp hfin).2.2.ne hgaintop

/-- **As long as the balance is a number, the indoor temperature stays in range.** -/
theorem inRange_exchangeHeat (hsound : parameters.Sound dt)
    (hvalve : s.valvePosition ≤ Valve.fullyOpen) (hrange : s.InRange)
    (houtside : s.outsideTemperature.isFinite = true) (h : s.balanceLost parameters = false) :
    (s.exchangeHeat parameters dt).InRange := by
  have hbalance : (s.heatGain parameters - s.heatLoss parameters).isNaN = false := by
    refine eq_false_of_ne_true fun hnan => ?_
    rw [(isNaN_balance hsound hvalve hrange houtside).mp hnan] at h
    cases h
  have hchange := isNaN_mul hbalance hsound.dt_isFinite hsound.dt_ne
  exact Thermal.hold_mem (isNaN_add hrange.isFinite hchange)

/-- **Once it is not, the indoor temperature is lost.** -/
theorem isNaN_exchangeHeat (hsound : parameters.Sound dt)
    (hvalve : s.valvePosition ≤ Valve.fullyOpen) (hrange : s.InRange)
    (houtside : s.outsideTemperature.isFinite = true) (h : s.balanceLost parameters = true) :
    (s.exchangeHeat parameters dt).insideTemperature.isNaN = true := by
  have hbalance := (isNaN_balance hsound hvalve hrange houtside).mpr h
  have hnan := isNaN_add_of_right s.insideTemperature (isNaN_mul_of_left hbalance dt)
  rw [insideTemperature_exchangeHeat, Thermal.hold_of_isNaN hnan]
  exact hnan

end State

/-! ### Whole histories -/

namespace Settings

variable {settings : Settings} {s : State}

theorem Reaches.outsideTemperature (h : settings.Reaches s) :
    s.outsideTemperature = settings.startup.outsideTemperature := by
  obtain ⟨events, rfl⟩ := h
  exact State.run_induction
    (P := fun s => s.outsideTemperature = settings.startup.outsideTemperature)
    (fun s event hs => (State.outsideTemperature_after _ s event).trans hs) rfl events

/-- Whether the next step of the plant finds gain and loss infinite at once. -/
def losesBalance (settings : Settings) (s : State) : Bool :=
  !s.pipesBurst && (s.moveValve settings.thermal settings.timing.dt).balanceLost settings.thermal

theorem losesBalance_of_intact (h : s.pipesBurst = false) :
    settings.losesBalance s =
      (s.moveValve settings.thermal settings.timing.dt).balanceLost settings.thermal := by
  rw [losesBalance, h, Bool.not_false, Bool.true_and]

theorem valvePosition_moveValve_le (settings : Settings) (s : State) :
    (s.moveValve settings.thermal settings.timing.dt).valvePosition ≤ Valve.fullyOpen :=
  Std.min_le_right

/-- One event keeps the range unless it is a step that loses the balance. -/
theorem inRange_after (hvalid : settings.Valid) (h : settings.Reaches s) (hrange : s.InRange)
    (hbalance : settings.losesBalance s = false) (event : Event) :
    (s.after settings.dynamics event).InRange := by
  cases event with
  | step =>
      show (s.step settings.dynamics).1.InRange
      rw [State.step_fst, State.InRange, State.insideTemperature_control]
      cases hpipes : s.pipesBurst
      · rw [State.insideTemperature_tick hpipes]
        rw [losesBalance_of_intact hpipes] at hbalance
        refine State.inRange_exchangeHeat hvalid.sound.thermalSound
          (valvePosition_moveValve_le settings s) hrange ?_ hbalance
        exact h.outsideTemperature ▸ hvalid.sound.outsideTemperature
      · rw [State.tick_of_pipesBurst hpipes]
        exact hrange
  | request action =>
      show (serve s action).1.InRange
      rw [State.InRange, (State.writtenFrom_serve s action).insideTemperature]
      exact hrange
  | crash =>
      show s.crash.1.InRange
      rw [State.InRange, State.insideTemperature_crash]
      exact hrange

/-- A step that loses the balance loses the temperature. -/
theorem isNaN_after_step (hvalid : settings.Valid) (h : settings.Reaches s) (hrange : s.InRange)
    (hbalance : settings.losesBalance s = true) :
    (s.after settings.dynamics .step).insideTemperature.isNaN = true := by
  show (s.step settings.dynamics).1.insideTemperature.isNaN = true
  have hpipes : s.pipesBurst = false := by
    cases hpipes : s.pipesBurst
    · rfl
    · rw [losesBalance, hpipes] at hbalance
      cases hbalance
  rw [losesBalance_of_intact hpipes] at hbalance
  rw [State.step_fst, State.insideTemperature_control, State.insideTemperature_tick hpipes]
  refine State.isNaN_exchangeHeat hvalid.sound.thermalSound (valvePosition_moveValve_le settings s)
    hrange ?_ hbalance
  exact h.outsideTemperature ▸ hvalid.sound.outsideTemperature

/-- The range is kept on every history on which no state within the range loses the balance. -/
theorem inRange_of_reaches (hvalid : settings.Valid)
    (hbalance : ∀ s, settings.Reaches s → s.InRange → settings.losesBalance s = false)
    (h : settings.Reaches s) : s.InRange := by
  obtain ⟨events, rfl⟩ := h
  -- the states on the way have to be reachable for the bound on the balance to apply
  have hafter : ∀ s event, settings.Reaches s ∧ s.InRange →
      settings.Reaches (s.after settings.dynamics event) ∧
        (s.after settings.dynamics event).InRange := by
    rintro s event ⟨hreaches, hrange⟩
    exact ⟨hreaches.after event, inRange_after hvalid hreaches hrange
      (hbalance s hreaches hrange) event⟩
  exact (State.run_induction hafter
    ⟨reaches_startup settings, hvalid.sound.insideTemperature⟩ events).2

/-- **A plant with valid settings keeps its indoor temperature in range exactly if it never comes
to a state whose next step finds gain and loss infinite at once.** -/
theorem temperature_in_range_iff (hvalid : settings.Valid) :
    (∀ s, settings.Reaches s →
      s.insideTemperature.isNaN = false ∧ -30 ≤ s.insideTemperature ∧
      s.insideTemperature ≤ 50) ↔
      ∀ s, settings.Reaches s → settings.losesBalance s = false := by
  constructor
  · intro hrange s h
    refine eq_false_of_ne_true fun hbalance => ?_
    have hnan := isNaN_after_step hvalid h (hrange s h).2 hbalance
    rw [(hrange _ (h.after .step)).1] at hnan
    cases hnan
  · intro hbalance s h
    have hrange := inRange_of_reaches hvalid (fun s h _ => hbalance s h) h
    exact ⟨isNaN_of_isFinite hrange.isFinite, hrange⟩

/-! ### Bounds that rule it out -/

/-- A building that a fully open valve heats by a finite amount never loses the balance. -/
theorem losesBalance_of_heating (hvalid : settings.Valid)
    (h : isUnbounded (settings.thermal.maxPower / settings.thermal.thermalMass) = false)
    (s : State) : settings.losesBalance s = false := by
  refine eq_false_of_ne_true fun hbalance => ?_
  rw [losesBalance, State.balanceLost] at hbalance
  have hgain := isUnbounded_iff.mp (Bool.and_eq_true_iff.mp (Bool.and_eq_true_iff.mp hbalance).2).1
  have hle := (le_iff.mp (State.heatGain_mem hvalid.sound.thermalSound
    (valvePosition_moveValve_le settings s)).2).2.2
  rw [hgain, top_le_iff, ← isUnbounded_iff, h] at hle
  cases hle

/-- So does one that loses a finite amount when it is warmest. -/
theorem losesBalance_of_cooling (hvalid : settings.Valid)
    (h : isUnbounded ((Thermal.warmest - settings.startup.outsideTemperature) *
      settings.thermal.lossFactor) = false)
    (hreaches : settings.Reaches s) (hrange : s.InRange) : settings.losesBalance s = false := by
  refine eq_false_of_ne_true fun hbalance => ?_
  rw [losesBalance, State.balanceLost] at hbalance
  have hloss := isUnbounded_iff.mp (Bool.and_eq_true_iff.mp (Bool.and_eq_true_iff.mp hbalance).2).2
  have houtside : s.outsideTemperature.isFinite = true :=
    hreaches.outsideTemperature ▸ hvalid.sound.outsideTemperature
  have hle := (le_iff.mp (State.heatLoss_le
    (s := s.moveValve settings.thermal settings.timing.dt) hvalid.sound.thermalSound hrange
    houtside)).2.2
  rw [hloss, top_le_iff, ← isUnbounded_iff] at hle
  change isUnbounded ((Thermal.warmest - s.outsideTemperature) * _) = true at hle
  rw [hreaches.outsideTemperature, h] at hle
  cases hle

/-- **Either bound keeps the indoor temperature in range.** -/
theorem inRange_of_bounded (hvalid : settings.Valid)
    (h : isUnbounded (settings.thermal.maxPower / settings.thermal.thermalMass) = false ∨
      isUnbounded ((Thermal.warmest - settings.startup.outsideTemperature) *
        settings.thermal.lossFactor) = false)
    (hreaches : settings.Reaches s) : s.InRange := by
  refine inRange_of_reaches hvalid (fun s hs hrange => ?_) hreaches
  rcases h with hheating | hcooling
  · exact losesBalance_of_heating hvalid hheating s
  · exact losesBalance_of_cooling hvalid hcooling hs hrange

/-- The reference building, whose heating is finite: it never loses the indoor temperature. -/
theorem temperature_in_range_reference :
    reference.Valid ∧ ∀ s, reference.Reaches s →
      s.insideTemperature.isNaN = false ∧ -30 ≤ s.insideTemperature ∧
      s.insideTemperature ≤ 50 :=
  ⟨by decide, (temperature_in_range_iff (by decide)).mpr fun s _ =>
    losesBalance_of_heating (by decide) (by decide +kernel) s⟩

/-- A light building with a strong heating and a strong loss. -/
def overpowered : Settings :=
  { reference with
    thermal := { ThermalParameters.reference with
      lossFactor := 1e308, maxPower := 1e308, thermalMass := 1e-308 } }

/-- **Its settings are valid, and its first step loses the indoor temperature.** -/
theorem temperature_lost_overpowered :
    overpowered.Valid ∧ ∃ s, overpowered.Reaches s ∧
      s.insideTemperature.isNaN = true ∧ ¬-30 ≤ s.insideTemperature := by
  refine ⟨by decide +kernel, overpowered.startup.state.run overpowered.dynamics [.step],
    ⟨_, rfl⟩, by decide +kernel, by decide +kernel⟩

end Settings

end HeatingPlant
