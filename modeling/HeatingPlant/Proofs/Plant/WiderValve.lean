import HeatingPlant.Proofs.Plant.Actuator
import HeatingPlant.Proofs.Plant.Degraded
import HeatingPlant.Proofs.Plant.HeatBalance

/-!
# A wider valve never makes it colder

Two plants that differ in nothing but their valves, of which one stands wider and is asked to
stand wider: after one tick it still does, delivers no less power, is no colder and stands no
worse.  Each stage of the tick keeps the order, from the actuator over the heat balance to the
classification of the status.

## Main definitions

* `State.Wider` — one plant has the wider valve, and all else is the same
* `State.heatTerms` — what an exchange of heat computes on its way to the new temperature

## Main statements

* `State.Wider.moveValve`, `State.Wider.opening_le`, `State.Wider.power_le` — the stages of the
  tick, up to the delivered power
* `State.Wider.heatGain_le`, `State.Wider.exchangeHeat_le` — those of the heat balance
* `State.reclassify_anti` — a building that is no colder stands no worse
* `Settings.wider_valve_never_colder` — all of them together

## Design notes

The loss is the same in both plants.  Once it is finite, the balance is a number whatever the gain
is, an infinite one included; so no other term of the balance is looked at for an overflow.
-/

namespace HeatingPlant

open Floating

/-- **Holding a temperature keeps the order.** -/
theorem Thermal.hold_mono {colder warmer : Float} (h : colder ≤ warmer) :
    hold colder ≤ hold warmer := by
  obtain ⟨-, hwarmer, -⟩ := le_iff.mp h
  by_cases hlow : colder < coldest
  · rw [hold, if_pos hlow]
    exact (hold_mem hwarmer).1
  by_cases hhigh : warmest < colder
  · have hhigh' : warmest < warmer := by
      obtain ⟨hwarmest, -, hlt⟩ := lt_iff.mp hhigh
      exact lt_iff.mpr ⟨hwarmest, hwarmer, hlt.trans_le (le_iff.mp h).2.2⟩
    have hnot : ¬warmer < coldest :=
      Floating.not_lt_of_le (Floating.le_trans (by decide) (Floating.le_of_lt hhigh'))
    rw [hold, hold, if_neg hlow, if_neg hnot, if_pos hhigh, if_pos hhigh']
    decide
  · rw [hold, if_neg hlow, if_neg hhigh]
    exact le_hold_of_le h (Floating.le_of_not_lt (by decide) (le_iff.mp h).1 hhigh)

namespace State

variable {s t : State} {parameters : ThermalParameters} {dt : Float}

/-- `t` is `s` with a valve that stands at least as wide and is asked to; neither is beyond fully
open. -/
structure Wider (s t : State) : Prop where
  /-- All else is the same. -/
  eq_with : t = { s with valveCommand := t.valveCommand, valvePosition := t.valvePosition }
  /-- The command is at least as wide. -/
  valveCommand : s.valveCommand ≤ t.valveCommand
  /-- So is the position. -/
  valvePosition : s.valvePosition ≤ t.valvePosition
  /-- The command is a percentage. -/
  valveCommand_le : t.valveCommand ≤ Valve.fullyOpen
  /-- So is the position. -/
  valvePosition_le : t.valvePosition ≤ Valve.fullyOpen

namespace Wider

theorem exists_eq (h : s.Wider t) :
    ∃ command position, t = { s with valveCommand := command, valvePosition := position } :=
  ⟨_, _, h.eq_with⟩

theorem controllerRunning (h : s.Wider t) : t.controllerRunning = s.controllerRunning := by
  rw [h.eq_with]

theorem pipesBurst (h : s.Wider t) : t.pipesBurst = s.pipesBurst := by
  rw [h.eq_with]

theorem status (h : s.Wider t) : t.status = s.status := by
  rw [h.eq_with]

theorem insideTemperature (h : s.Wider t) : t.insideTemperature = s.insideTemperature := by
  rw [h.eq_with]

theorem outsideTemperature (h : s.Wider t) : t.outsideTemperature = s.outsideTemperature := by
  rw [h.eq_with]

theorem heatLoss (h : s.Wider t) : t.heatLoss parameters = s.heatLoss parameters := by
  rw [h.eq_with]
  rfl

end Wider

/-! ### The valve and the heat balance -/

theorem valvePosition_moveValve (hrunning : s.controllerRunning = true) :
    (s.moveValve parameters dt).valvePosition =
      Valve.slew s.valvePosition s.valveCommand (Thermal.travel parameters dt) := by
  rw [moveValve, if_pos hrunning]
  exact if_pos (Valve.slew_le _ _ _)

/-- **A wider valve is moved to where it is no narrower.** -/
theorem Wider.moveValve (h : s.Wider t) (hrunning : s.controllerRunning = true)
    (htravel : 0 ≤ Thermal.travel parameters dt) :
    (s.moveValve parameters dt).Wider (t.moveValve parameters dt) := by
  refine ⟨?_, h.valveCommand, ?_, h.valveCommand_le, Std.min_le_right⟩
  · obtain ⟨command, position, rfl⟩ := h.exists_eq
    rfl
  · rw [valvePosition_moveValve hrunning,
      valvePosition_moveValve (h.controllerRunning.trans hrunning)]
    exact Valve.slew_mono h.valvePosition h.valveCommand h.valvePosition_le
      h.valveCommand_le htravel

/-- It lets no less through. -/
theorem Wider.opening_le (h : s.Wider t) (hrunning : s.controllerRunning = true) :
    s.opening ≤ t.opening := by
  have hhundred : Denotes 100 100 := denotes_ofNat 100 (by norm_num)
  have hposition : (s.valvePosition.toNat : ℝ) ≤ t.valvePosition.toNat := by
    exact_mod_cast UInt8.le_iff_toNat_le.mp h.valvePosition
  rw [opening, opening, if_pos hrunning, if_pos (h.controllerRunning.trans hrunning)]
  refine ((denotes_uint8 _).rounds_div hhundred (by norm_num)).mono
    ((denotes_uint8 _).rounds_div hhundred (by norm_num)) ?_
  gcongr

/-- **It delivers no less power.** -/
theorem Wider.power_le (h : s.Wider t) (hsound : parameters.Sound dt)
    (hrunning : s.controllerRunning = true) :
    s.opening * parameters.maxPower ≤ t.opening * parameters.maxPower := by
  have hfin : ∀ {u : State}, u.valvePosition ≤ Valve.fullyOpen → u.opening.isFinite = true :=
    fun hvalve =>
      isFinite_of_between (by decide) (by decide) (opening_mem hvalve).1 (opening_mem hvalve).2
  have hnarrow := hfin (UInt8.le_trans h.valvePosition h.valvePosition_le)
  have hwide := hfin h.valvePosition_le
  refine (rounds_mul hnarrow hsound.maxPower).mono (rounds_mul hwide hsound.maxPower) ?_
  exact mul_le_mul_of_nonneg_right ((real_le_real hnarrow hwide).mpr (h.opening_le hrunning))
    hsound.maxPower_nonneg

/-- **It heats no less.** -/
theorem Wider.heatGain_le (h : s.Wider t) (hsound : parameters.Sound dt)
    (hrunning : s.controllerRunning = true) : s.heatGain parameters ≤ t.heatGain parameters := by
  have hmass := hsound.thermalMass_pos
  obtain ⟨hnarrow, -⟩ := power_mem hsound (UInt8.le_trans h.valvePosition h.valvePosition_le)
  obtain ⟨hwide, -⟩ := power_mem hsound h.valvePosition_le
  refine (rounds_div hnarrow hsound.thermalMass hmass.ne').mono
    (rounds_div hwide hsound.thermalMass hmass.ne') ?_
  exact div_le_div_of_nonneg_right
    ((real_le_real hnarrow hwide).mpr (h.power_le hsound hrunning)) hmass.le

/-- **Where the loss is finite, it leaves the building no colder.** -/
theorem Wider.exchangeHeat_le (h : s.Wider t) (hsound : parameters.Sound dt) (hdt : 0 < real dt)
    (hrunning : s.controllerRunning = true) (hinside : s.insideTemperature.isFinite = true)
    (hloss : (s.heatLoss parameters).isFinite = true) :
    (s.exchangeHeat parameters dt).insideTemperature ≤
      (t.exchangeHeat parameters dt).insideTemperature := by
  have hbalance : s.heatGain parameters - s.heatLoss parameters ≤
      t.heatGain parameters - s.heatLoss parameters :=
    sub_le_sub_finite (h.heatGain_le hsound hrunning) hloss
  rw [insideTemperature_exchangeHeat, insideTemperature_exchangeHeat,
    h.insideTemperature, h.heatLoss]
  exact Thermal.hold_mono
    (add_le_add_finite hinside (mul_le_mul_finite hbalance hsound.dt_isFinite hdt))

/-- What an exchange of heat computes on its way to the new temperature, in this order: how much
warmer it is inside, the loss, the opening, the delivered power, the gain, the balance, the change
and the sum. -/
def heatTerms (parameters : ThermalParameters) (dt : Float) (s : State) : List Float :=
  [s.insideTemperature - s.outsideTemperature, s.heatLoss parameters, s.opening,
    s.opening * parameters.maxPower, s.heatGain parameters,
    s.heatGain parameters - s.heatLoss parameters,
    (s.heatGain parameters - s.heatLoss parameters) * dt,
    s.insideTemperature + (s.heatGain parameters - s.heatLoss parameters) * dt]

/-- A loss on whose way nothing overflows is finite. -/
theorem isFinite_heatLoss (hsound : parameters.Sound dt)
    (hinside : s.insideTemperature.isFinite = true)
    (houtside : s.outsideTemperature.isFinite = true)
    (hterms : ∀ term ∈ s.heatTerms parameters dt, term.isInf = false) :
    (s.heatLoss parameters).isFinite = true := by
  obtain ⟨hdifference, hloss, -⟩ :=
    List.forall_mem_cons.mp hterms |>.imp_right List.forall_mem_cons.mp
  have hfin := isFinite_of_not_isInf (rounds_sub hinside houtside).isNaN_eq hdifference
  exact isFinite_of_not_isInf (rounds_mul hfin hsound.lossFactor).isNaN_eq hloss

/-! ### The status -/

/-- A plant whose status is not that of burst pipes gets the status of its temperature, and bursts
at the burst point. -/
theorem reclassify_of_ne_burst (h : s.status ≠ .burst) :
    s.reclassify =
      if atBurstPoint s.insideTemperature then { s with status := .burst, pipesBurst := true }
      else { s with status := .ofTemperature s.insideTemperature } := by
  rw [reclassify, if_neg h]
  dsimp only
  by_cases hburst : atBurstPoint s.insideTemperature = true
  · rw [if_pos hburst, if_pos ⟨Status.ofTemperature_of_atBurstPoint hburst, hburst⟩]
  · rw [if_neg hburst, if_neg fun hboth => hburst hboth.2]

/-- **A building that is no colder stands no worse**, and its pipes burst only if the other's do. -/
theorem reclassify_anti (hstatus : t.status = s.status) (hpipes : t.pipesBurst = s.pipesBurst)
    (h : s.insideTemperature ≤ t.insideTemperature) :
    t.reclassify.status ≤ s.reclassify.status ∧
      (t.reclassify.pipesBurst = true → s.reclassify.pipesBurst = true) := by
  by_cases hburst : s.status = .burst
  · -- what is remembered as burst is not classified any more
    have hkept : ∀ {u : State}, u.status = .burst → u.reclassify = u := fun hu => if_pos hu
    rw [hkept hburst, hkept (hstatus.trans hburst), hstatus, hpipes]
    exact ⟨Nat.le_refl _, id⟩
  rw [reclassify_of_ne_burst hburst, reclassify_of_ne_burst (hstatus ▸ hburst)]
  by_cases hcold : atBurstPoint s.insideTemperature = true
  · rw [if_pos hcold]
    exact ⟨Status.le_burst _, fun _ => rfl⟩
  · have hwarm : ¬atBurstPoint t.insideTemperature = true := fun hcold' =>
      hcold (decide_eq_true (Floating.le_trans h (of_decide_eq_true hcold')))
    rw [if_neg hcold, if_neg hwarm]
    exact ⟨Status.ofTemperature_anti h, fun hpipes' => hpipes ▸ hpipes'⟩

end State

namespace Settings

variable {settings : Settings} {s t : State}

/-- **A wider valve never makes it colder.**  Of two intact plants under a running controller,
with valid settings and finite temperatures, let one have the valve that stands at least as wide
and is asked to stand at least as wide, and all else be the same.  If nothing on the way to its
new temperature overflows, then after one tick its valve still stands at least as wide, it
delivers no less power, is no colder and stands no worse than the other; in particular its pipes
burst only if the other's do. -/
theorem wider_valve_never_colder (hvalid : settings.Valid) (hrunning : s.controllerRunning = true)
    (hintact : s.pipesBurst = false) (hinside : s.insideTemperature.isFinite = true)
    (houtside : s.outsideTemperature.isFinite = true) (hwider : s.Wider t)
    (hterms : ∀ term ∈ (t.moveValve settings.thermal settings.timing.dt).heatTerms
      settings.thermal settings.timing.dt, term.isInf = false) :
    let narrow := (s.tick settings.thermal settings.timing.dt).1
    let wide := (t.tick settings.thermal settings.timing.dt).1
    narrow.valvePosition ≤ wide.valvePosition ∧ narrow.heaterPower ≤ wide.heaterPower ∧
      narrow.insideTemperature ≤ wide.insideTemperature ∧ wide.status ≤ narrow.status ∧
      (wide.pipesBurst = true → narrow.pipesBurst = true) := by
  intro narrow wide
  have hsound := hvalid.sound.thermalSound
  have htravel : 0 ≤ Thermal.travel settings.thermal settings.timing.dt :=
    zero_le_one.trans (one_le_travel hvalid)
  have hintact' : t.pipesBurst = false := hwider.pipesBurst.trans hintact
  have hmoved := hwider.moveValve hrunning htravel
  have hloss : ((s.moveValve settings.thermal settings.timing.dt).heatLoss
      settings.thermal).isFinite = true := by
    rw [← hmoved.heatLoss]
    refine State.isFinite_heatLoss hsound ?_ ?_ hterms
    · exact hwider.insideTemperature ▸ hinside
    · exact hwider.outsideTemperature ▸ houtside
  have hcolder := hmoved.exchangeHeat_le hsound hvalid.sound.real_dt_pos hrunning hinside hloss
  have hclassified :
      wide.status ≤ narrow.status ∧ (wide.pipesBurst = true → narrow.pipesBurst = true) := by
    have hnarrow : narrow = State.reclassify _ := State.tick_of_intact hintact
    have hwide : wide = State.reclassify _ := State.tick_of_intact hintact'
    rw [hnarrow, hwide]
    exact State.reclassify_anti hwider.status hwider.pipesBurst hcolder
  refine ⟨?_, ?_, ?_, hclassified⟩
  · rw [State.valvePosition_tick hintact, State.valvePosition_tick hintact']
    exact hmoved.valvePosition
  · rw [State.heaterPower_tick hintact, State.heaterPower_tick hintact']
    exact hmoved.power_le hsound hrunning
  · rw [State.insideTemperature_tick hintact, State.insideTemperature_tick hintact']
    exact hcolder

/-- A building just above the burst point, with the valve shut: shut, it bursts at the next tick.
Where the valve stands at a fifth and is asked to open, it does not. -/
theorem wider_valve_never_colder_thaw :
    let settings := Settings.reference
    let s : State :=
      { State.initial with
        insideTemperature := -1.9, status := .frozen, valveCommand := 0, valvePosition := 0 }
    let t : State := { s with valveCommand := 100, valvePosition := 20 }
    let narrow := (s.tick settings.thermal settings.timing.dt).1
    let wide := (t.tick settings.thermal settings.timing.dt).1
    settings.Valid ∧ s.controllerRunning = true ∧ s.pipesBurst = false ∧
      s.insideTemperature.isFinite = true ∧ s.outsideTemperature.isFinite = true ∧ s.Wider t ∧
      (∀ term ∈ (t.moveValve settings.thermal settings.timing.dt).heatTerms settings.thermal
        settings.timing.dt, term.isInf = false) ∧
      (narrow.valvePosition ≤ wide.valvePosition ∧ narrow.heaterPower ≤ wide.heaterPower ∧
        narrow.insideTemperature ≤ wide.insideTemperature ∧ wide.status ≤ narrow.status ∧
        (wide.pipesBurst = true → narrow.pipesBurst = true)) ∧
      narrow.status = .burst ∧ wide.status = .frozen := by
  intro settings s t narrow wide
  have hvalid : settings.Valid := by decide
  have hwider : s.Wider t := ⟨rfl, by decide, by decide, by decide, by decide⟩
  have hterms :
    ∀ term ∈ (t.moveValve settings.thermal settings.timing.dt).heatTerms settings.thermal
      settings.timing.dt, term.isInf = false := by decide +kernel
  refine ⟨hvalid, by decide, by decide, by decide, by decide, hwider, hterms, ?_,
    by decide +kernel, by decide +kernel⟩
  exact wider_valve_never_colder hvalid (by decide) (by decide) (by decide)
    (by decide) hwider hterms

end Settings

end HeatingPlant
