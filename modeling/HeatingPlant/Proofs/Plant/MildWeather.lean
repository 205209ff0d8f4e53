import HeatingPlant.Proofs.Floating.Whole
import HeatingPlant.Proofs.Plant.HeatBalance

/-!
# Pipes in mild weather

A tick takes off the lead over the weather times the loss factor and the length of the tick.  Where
that product is beyond one, a tick takes off more than the whole lead: the building comes down below
the weather, and it may burst its pipes in weather that freezes nothing.

## Main definitions

* `Settings.overshoots` — the next tick brings a building that is warmer than the weather to the
  burst point

## Main statements

* `State.exists_denotes_heatLoss` — what a tick takes off, where loss factor times tick is at
  most one
* `State.neg_one_le_tick` — a tick of such a building, warmer than mild weather, ends well above
  the burst point
* `Settings.pipesBurst_step` — no building bursts its pipes but one that overshoots
* `Settings.intact_in_mild_weather` — what that means for every history

## Design notes

The bound on the product of loss factor and tick is one on the float that they multiply to; what
rounding leaves out of account is less than the two degrees between the freezing point and the burst
point.
-/

namespace HeatingPlant

open Floating

/-- A tick takes a thousandth of a second at least, and no more than the longest interval. -/
theorem TimerSettings.real_dt_bounds (timing : TimerSettings) (h : 0 < real timing.dt) :
    (2 : ℝ) ^ (-10 : ℤ) ≤ real timing.dt ∧ real timing.dt ≤ 2 ^ (64 : ℤ) := by
  have hthousand : Denotes 1000 1000 := denotes_ofNat 1000 (by norm_num)
  have hticks := rounds_uint64 timing.tickInterval
  have hfin := timing.isFinite_tickInterval
  have hdt := rounds_div hfin hthousand.isFinite_eq (by rw [hthousand.real_eq]; norm_num)
  have hdtfin := timing.isFinite_dt
  rw [hthousand.real_eq] at hdt
  have hpos : timing.tickInterval.toNat ≠ 0 := by
    intro hzero
    rw [hzero, Nat.cast_zero] at hticks
    rw [(hticks.denotes nearest_zero).real_eq, zero_div] at hdt
    exact h.ne' (hdt.denotes nearest_zero).real_eq
  have hlow : 1 ≤ real timing.tickInterval.toFloat := by
    have hle := hticks.coe_le_extended (m := 1) (e := 0) (by norm_num) (by norm_num) (by norm_num)
      (by simpa using Nat.one_le_iff_ne_zero.mpr hpos)
    rw [extended_eq_real hfin, EReal.coe_le_coe_iff] at hle
    simpa using hle
  have hhigh : real timing.tickInterval.toFloat ≤ 2 ^ (64 : ℤ) := by
    have hle := hticks.extended_le_coe (m := 1) (e := 64) (by norm_num) (by norm_num) (by norm_num)
      (by rw [Int.cast_one, one_mul]; exact_mod_cast timing.tickInterval.toNat_lt.le)
    rw [extended_eq_real hfin, EReal.coe_le_coe_iff] at hle
    simpa using hle
  have hleast := hdt.coe_le_extended (m := 1) (e := -10) (by norm_num) (by norm_num) (by norm_num)
    (by rw [Int.cast_one, one_mul]; norm_num; linarith)
  have hmost := hdt.extended_le_coe (m := 1) (e := 64) (by norm_num) (by norm_num) (by norm_num)
    (by rw [Int.cast_one, one_mul]; norm_num at hhigh ⊢; linarith)
  rw [← TimerSettings.dt, extended_eq_real hdtfin, EReal.coe_le_coe_iff] at hleast hmost
  rw [Int.cast_one, one_mul] at hleast hmost
  exact ⟨hleast, hmost⟩

/-- A building and a length of a tick that takes off no more than the lead over the weather. -/
structure ThermalParameters.Stable (parameters : ThermalParameters) (dt : Float) : Prop
    extends parameters.Sound dt where
  /-- A tick is not too short for the loss factor to be bounded. -/
  dt_ge : (2 : ℝ) ^ (-10 : ℤ) ≤ real dt
  /-- It is not too long for losses that are lost to rounding. -/
  dt_le : real dt ≤ 2 ^ (64 : ℤ)
  /-- Loss factor times tick is at most one. -/
  product_le : parameters.lossFactor * dt ≤ 1

theorem Settings.Sound.stable {settings : Settings} (h : settings.Sound)
    (hproduct : settings.thermal.lossFactor * settings.timing.dt ≤ 1) :
    settings.thermal.Stable settings.timing.dt where
  toSound := h.thermalSound
  dt_ge := (settings.timing.real_dt_bounds h.real_dt_pos).1
  dt_le := (settings.timing.real_dt_bounds h.real_dt_pos).2
  product_le := hproduct

namespace ThermalParameters.Stable

variable {parameters : ThermalParameters} {dt : Float}

theorem real_dt_pos (h : parameters.Stable dt) : 0 < real dt :=
  lt_of_lt_of_le (by positivity) h.dt_ge

/-- A product that rounds to one at most is not much larger. -/
theorem real_product_le (h : parameters.Stable dt) :
    real parameters.lossFactor * real dt ≤ 129 / 128 := by
  by_contra! hlarge
  have hround := rounds_mul h.lossFactor h.dt_isFinite
  have hge := hround.coe_le_extended (m := 129) (e := -7) (by norm_num) (by norm_num) (by norm_num)
    (by norm_num; linarith)
  have hle := (le_iff.mp h.product_le).2.2
  rw [extended_eq_real denotes_one.isFinite_eq, denotes_one.real_eq] at hle
  have hcontra := EReal.coe_le_coe_iff.mp (hge.trans hle)
  norm_num at hcontra

/-- The loss factor is bounded. -/
theorem real_lossFactor_le (h : parameters.Stable dt) :
    real parameters.lossFactor ≤ 2 ^ (11 : ℤ) := by
  have hleast := h.dt_ge
  have hproduct := h.real_product_le
  have hnonneg := h.lossFactor_nonneg
  norm_num at hleast ⊢
  nlinarith

/-- **What a tick takes off is hardly more than the lead**, if it is rounded once: the error
relative to it is below a thousandth, and one that underflows is too small for any tick. -/
theorem taken_le (h : parameters.Stable dt) {lead q : ℝ} (hlead : 0 ≤ lead)
    (hlead_le : lead ≤ 50)
    (hnear : |q - lead * real parameters.lossFactor| ≤
      lead * real parameters.lossFactor * 2 ^ (-51 : ℤ) + 2 ^ (-1074 : ℤ)) :
    q * real dt ≤ lead + 1 / 2 := by
  have hfactor := h.lossFactor_nonneg
  have hdt := h.real_dt_pos
  have hrelative : (2 : ℝ) ^ (-51 : ℤ) ≤ 1 / 1024 := by norm_num
  have habsolute : (2 : ℝ) ^ (-1074 : ℤ) * real dt ≤ 1 / 1024 := by
    calc (2 : ℝ) ^ (-1074 : ℤ) * real dt ≤ 2 ^ (-1074 : ℤ) * 2 ^ (64 : ℤ) := by
          gcongr
          exact h.dt_le
      _ = 2 ^ (-1010 : ℤ) := by rw [← zpow_add₀ two_ne_zero]; norm_num
      _ ≤ 2 ^ (-10 : ℤ) := zpow_le_zpow_right₀ one_le_two (by norm_num)
      _ = 1 / 1024 := by norm_num
  have htaken : lead * real parameters.lossFactor * real dt ≤ lead * (129 / 128) := by
    rw [mul_assoc]
    gcongr
    exact h.real_product_le
  have hq_le : q ≤ lead * real parameters.lossFactor * (1 + 1 / 1024) + 2 ^ (-1074 : ℤ) := by
    calc q ≤ lead * real parameters.lossFactor +
          (lead * real parameters.lossFactor * 2 ^ (-51 : ℤ) + 2 ^ (-1074 : ℤ)) :=
        sub_le_iff_le_add'.mp (abs_le.mp hnear).2
      _ ≤ lead * real parameters.lossFactor +
          (lead * real parameters.lossFactor * (1 / 1024) + 2 ^ (-1074 : ℤ)) := by gcongr
      _ = _ := by ring
  calc q * real dt
      ≤ (lead * real parameters.lossFactor * (1 + 1 / 1024) + 2 ^ (-1074 : ℤ)) * real dt := by
        gcongr
    _ = lead * real parameters.lossFactor * real dt * (1 + 1 / 1024) +
        2 ^ (-1074 : ℤ) * real dt := by ring
    _ ≤ lead * (129 / 128) * (1 + 1 / 1024) + 1 / 1024 := by gcongr
    _ ≤ lead + 1 / 2 := by linarith

end ThermalParameters.Stable

namespace State

variable {s : State} {parameters : ThermalParameters} {dt : Float}

section Warmer

variable (hrange : s.InRange) (houtside : s.outsideTemperature.isFinite = true)
  (hmild : 0 ≤ s.outsideTemperature) (hwarmer : s.outsideTemperature ≤ s.insideTemperature)
include hrange houtside hmild hwarmer

/-- The lead of a building over mild weather is at most its temperature. -/
theorem exists_denotes_lead :
    ∃ lead, Denotes (s.insideTemperature - s.outsideTemperature) lead ∧ 0 ≤ lead ∧
      lead ≤ real s.insideTemperature ∧ real s.insideTemperature ≤ 50 := by
  obtain ⟨hround, hfin⟩ := rounds_difference hrange houtside
  have hmild' := (real_nonneg houtside).mpr hmild
  have hwarmer' := (real_le_real houtside hrange.isFinite).mpr hwarmer
  have hwarm : Denotes Thermal.warmest 50 := denotes_ofNat 50 (by norm_num)
  refine ⟨_, ⟨hfin, rfl⟩, ?_, ?_, ?_⟩
  · refine (real_nonneg hfin).mpr (hround.ge (by decide) ?_)
    rw [real_zero]
    linarith
  · exact (real_le_real hfin hrange.isFinite).mpr (hround.le hrange.isFinite (by linarith))
  · rw [← hwarm.real_eq]
    exact (real_le_real hrange.isFinite hwarm.isFinite_eq).mpr hrange.2

/-- **What a tick takes off a building that is warmer than mild weather** is hardly more than its
temperature. -/
theorem exists_denotes_heatLoss (hstable : parameters.Stable dt) :
    ∃ q, Denotes (s.heatLoss parameters) q ∧ 0 ≤ q ∧
      q * real dt ≤ real s.insideTemperature + 1 / 2 := by
  obtain ⟨lead, hlead, hlead_nonneg, hlead_le, hwarmest⟩ :=
    exists_denotes_lead hrange houtside hmild hwarmer
  have hfactor := hstable.lossFactor_nonneg
  have hround := rounds_mul hlead.isFinite_eq hstable.lossFactor
  rw [hlead.real_eq] at hround
  have hthousand : (2 : ℝ) ^ (20 : ℤ) < 2 ^ (1000 : ℤ) :=
    zpow_lt_zpow_right₀ one_lt_two (by norm_num)
  have hsmall : lead * real parameters.lossFactor ≤ 2 ^ (20 : ℤ) := by
    have hfactor_le := hstable.real_lossFactor_le
    norm_num at hfactor_le ⊢
    nlinarith
  obtain ⟨q, hq, herror⟩ :=
    hround.exists_denotes_near (by positivity) (hsmall.trans_lt hthousand)
  refine ⟨q, hq, ?_, ?_⟩
  · rw [← hq.real_eq]
    exact (real_nonneg hq.isFinite_eq).mpr (heatLoss_nonneg hstable.toSound hrange houtside hwarmer)
  · have htaken := hstable.taken_le hlead_nonneg (hlead_le.trans hwarmest) herror
    linarith

/-- **A tick of such a building ends well above the burst point.** -/
theorem neg_one_le_exchangeHeat (hstable : parameters.Stable dt)
    (hvalve : s.valvePosition ≤ Valve.fullyOpen) :
    -1 ≤ (s.exchangeHeat parameters dt).insideTemperature := by
  obtain ⟨q, hloss, hq, htaken⟩ :=
    exists_denotes_heatLoss hrange houtside hmild hwarmer hstable
  have hdt := hstable.real_dt_pos
  have hgain := (heatGain_mem hstable.toSound hvalve).1
  have hnegated := hloss.neg
  have hwarmest : real s.insideTemperature ≤ 50 :=
    (exists_denotes_lead hrange houtside hmild hwarmer).choose_spec.2.2.2
  -- whatever is gained, the balance is no worse than the loss
  have hchange := mul_le_mul_finite (neg_le_sub hgain hloss) hstable.dt_isFinite hdt
  -- the loss of a tick, rounded once more
  have hround := rounds_mul hnegated.isFinite_eq hstable.dt_isFinite
  rw [hnegated.real_eq] at hround
  obtain ⟨change, hdenotes, herror⟩ :=
    hround.exists_denotes (e := -40) (by norm_num) (by norm_num)
      (by rw [neg_mul, abs_neg, abs_of_nonneg (by positivity)]; norm_num; linarith)
  have hsum := rounds_add hrange.isFinite hdenotes.isFinite_eq
  rw [hdenotes.real_eq] at hsum
  rw [insideTemperature_exchangeHeat]
  refine Thermal.le_hold_of_le ?_ (by decide)
  refine Floating.le_trans (hsum.ge denotes_one.neg.isFinite_eq ?_)
    (add_le_add_finite hrange.isFinite hchange)
  have herror' := (abs_le.mp herror).1
  rw [denotes_one.neg.real_eq]
  norm_num at herror' ⊢
  linarith

/-- **A tick of such a building, warmer than mild weather, ends well above the burst point.** -/
theorem neg_one_le_tick (hstable : parameters.Stable dt) (hpipes : s.pipesBurst = false) :
    -1 ≤ (s.tick parameters dt).1.insideTemperature := by
  rw [insideTemperature_tick hpipes]
  exact neg_one_le_exchangeHeat (s := s.moveValve parameters dt) hrange houtside hmild hwarmer
    hstable
    Std.min_le_right

end Warmer

end State

namespace Settings

variable {settings : Settings} {s : State}

/-- Whether the next tick brings a building that is warmer than the weather to the burst point. -/
def overshoots (settings : Settings) (s : State) : Bool :=
  decide (s.outsideTemperature < s.insideTemperature) &&
    atBurstPoint (s.tick settings.thermal settings.timing.dt).1.insideTemperature

/-- **No building bursts its pipes in a step but one that overshoots.** -/
theorem pipesBurst_step (hvalid : settings.Valid) (h : settings.Reaches s)
    (hpipes : s.pipesBurst = false) (habove : s.AboveBurstPoint)
    (hnot : settings.overshoots s = false) :
    (s.after settings.dynamics .step).pipesBurst = false := by
  have hcoherent := (h.coherent.tick settings.thermal settings.timing.dt).1
  show (s.step settings.dynamics).1.pipesBurst = false
  rw [State.step_fst, State.pipesBurst_control]
  refine eq_false_of_ne_true fun hburst => ?_
  have hcold := hcoherent.atBurstPoint hburst
  have houtside : s.outsideTemperature.isFinite = true :=
    h.outsideTemperature ▸ hvalid.sound.outsideTemperature
  obtain hnan | hrange := h.held hvalid
  · have hnumber := (le_iff.mp (of_decide_eq_true hcold)).1
    rw [State.isNaN_tick hpipes hnan] at hnumber
    cases hnumber
  · -- a building that does not lead the weather does not get colder
    have hnotwarmer : ¬s.outsideTemperature < s.insideTemperature := by
      rw [overshoots, hcold, Bool.and_true] at hnot
      exact of_decide_eq_false hnot
    have hcolder := Floating.le_of_not_lt (isNaN_of_isFinite houtside)
      (isNaN_of_isFinite hrange.isFinite) hnotwarmer
    have hrises :=
      State.le_insideTemperature_tick hvalid.sound.thermalSound hvalid.sound.real_dt_pos
      hrange houtside hpipes hcolder
    have hburst' := decide_eq_true (Floating.le_trans hrises (of_decide_eq_true hcold))
    rw [← atBurstPoint, habove hpipes] at hburst'
    cases hburst'

/-- Where no state overshoots, no pipes burst. -/
theorem pipesBurst_of_not_overshoots (hvalid : settings.Valid)
    (habove : settings.startup.state.AboveBurstPoint)
    (hnot : ∀ s, settings.Reaches s → settings.overshoots s = false) (h : settings.Reaches s) :
    s.pipesBurst = false := by
  obtain ⟨events, rfl⟩ := h
  -- the states on the way have to be reachable for the bound on the next tick to apply
  have hafter : ∀ s event, settings.Reaches s ∧ s.AboveBurstPoint ∧ s.pipesBurst = false →
      settings.Reaches (s.after settings.dynamics event) ∧
        (s.after settings.dynamics event).AboveBurstPoint ∧
        (s.after settings.dynamics event).pipesBurst = false := by
    rintro s event ⟨hreaches, habove, hpipes⟩
    refine ⟨hreaches.after event, habove.after hreaches.coherent settings.dynamics event, ?_⟩
    cases event with
    | step => exact pipesBurst_step hvalid hreaches hpipes habove (hnot s hreaches)
    | request action => exact (State.writtenFrom_serve s action).pipesBurst.trans hpipes
    | crash => exact State.pipesBurst_crash.trans hpipes
  exact (State.run_induction hafter ⟨reaches_startup settings, habove, rfl⟩ events).2.2

/-- **In mild weather no building overshoots whose loss factor times tick is at most one.** -/
theorem overshoots_of_stable (hvalid : settings.Valid)
    (hmild : 0 ≤ settings.startup.outsideTemperature)
    (hproduct : settings.thermal.lossFactor * settings.timing.dt ≤ 1) (h : settings.Reaches s) :
    settings.overshoots s = false := by
  refine eq_false_of_ne_true fun hovershoots => ?_
  rw [overshoots, Bool.and_eq_true] at hovershoots
  have hwarmer := of_decide_eq_true hovershoots.1
  have hcold := of_decide_eq_true hovershoots.2
  have hwarmer' := Floating.le_of_lt hwarmer
  have hnumber := (le_iff.mp hwarmer').2.1
  have hmild' : 0 ≤ s.outsideTemperature := h.outsideTemperature ▸ hmild
  have houtside : s.outsideTemperature.isFinite = true :=
    h.outsideTemperature ▸ hvalid.sound.outsideTemperature
  have hrange : s.InRange :=
    (h.held hvalid).resolve_left (by rw [hnumber]; exact Bool.false_ne_true)
  have hpipes : s.pipesBurst = false := by
    refine eq_false_of_ne_true fun hpipes => ?_
    have hburst : s.insideTemperature ≤ Status.burstPoint :=
      of_decide_eq_true (h.coherent.atBurstPoint hpipes)
    have hcontra := Floating.le_trans hmild' (Floating.le_trans hwarmer' hburst)
    exact absurd hcontra (by decide)
  have htick := State.neg_one_le_tick hrange houtside hmild' hwarmer' (hvalid.sound.stable hproduct)
    hpipes
  exact absurd (Floating.le_trans htick hcold) (by decide)

/-- **Pipes in mild weather stay intact exactly if no tick overshoots**, and none does where loss
factor times tick is at most one. -/
theorem intact_in_mild_weather (hvalid : settings.Valid)
    (hmild : 0 ≤ settings.startup.outsideTemperature)
    (hwarm : 0 < settings.startup.insideTemperature) :
    ((∀ s, settings.Reaches s → s.pipesBurst = false) ↔
      ∀ s, settings.Reaches s → settings.overshoots s = false) ∧
    (settings.thermal.lossFactor * settings.timing.dt ≤ 1 →
      ∀ s, settings.Reaches s → s.pipesBurst = false) := by
  have habove : settings.startup.state.AboveBurstPoint := by
    refine fun _ => decide_eq_false fun hcold => ?_
    have hcontra : 0 ≤ Status.burstPoint := Floating.le_trans (Floating.le_of_lt hwarm) hcold
    exact absurd hcontra (by decide)
  refine ⟨⟨fun hintact s h => ?_,
    fun hnot s => pipesBurst_of_not_overshoots hvalid habove hnot⟩,
    fun hproduct s => pipesBurst_of_not_overshoots hvalid habove
      fun s => overshoots_of_stable hvalid hmild hproduct⟩
  -- a tick to the burst point bursts the pipes
  refine eq_false_of_ne_true fun hovershoots => ?_
  rw [overshoots, Bool.and_eq_true] at hovershoots
  have hburst := (h.coherent.tick settings.thermal settings.timing.dt).2 hovershoots.2
  have hstep : (s.step settings.dynamics).1.pipesBurst = false := hintact _ (h.after .step)
  rw [State.step_fst, State.pipesBurst_control] at hstep
  exact absurd (hburst.symm.trans hstep) Bool.noConfusion

/-- The reference building on a mild day. -/
def thaw : Settings :=
  { reference with
    startup := { InitialConditions.reference with outsideTemperature := 5 } }

/-- A tick takes off no more than the lead that the building has over the weather: five degrees
outdoors leave its pipes whole forever. -/
theorem intact_in_mild_weather_thaw :
    thaw.Valid ∧ 0 ≤ thaw.startup.outsideTemperature ∧ 0 < thaw.startup.insideTemperature ∧
      thaw.thermal.lossFactor * thaw.timing.dt ≤ 1 ∧
      ∀ s, thaw.Reaches s → s.pipesBurst = false := by
  have hvalid : thaw.Valid := by decide
  have hmild : 0 ≤ thaw.startup.outsideTemperature := by decide
  have hwarm : 0 < thaw.startup.insideTemperature := by decide
  have hproduct : thaw.thermal.lossFactor * thaw.timing.dt ≤ 1 := by decide +kernel
  exact ⟨hvalid, hmild, hwarm, hproduct, (intact_in_mild_weather hvalid hmild hwarm).2 hproduct⟩

/-- The same building on the same day, looked at every hundred seconds. -/
def coarse : Settings :=
  { thaw with timing := { TimerSettings.reference with tickInterval := 100000 } }

/-- **Its settings are valid, and its second step bursts the pipes**: the first one heats it to the
limit of the model, and the second one takes off half as much again as its lead over the weather. -/
theorem bursts_in_mild_weather :
    coarse.Valid ∧ 0 ≤ coarse.startup.outsideTemperature ∧
    0 < coarse.startup.insideTemperature ∧
      ∃ s, coarse.Reaches s ∧ s.pipesBurst = true := by
  refine ⟨by decide, by decide, by decide,
    coarse.startup.state.run coarse.dynamics [.step, .step], ⟨_, rfl⟩, by decide +kernel⟩

end Settings

end HeatingPlant
