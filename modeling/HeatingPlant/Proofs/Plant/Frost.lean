import HeatingPlant.Proofs.Plant.Degraded
import HeatingPlant.Proofs.Plant.HeatBalance

/-!
# No way back from a crash in frost

A plant without control gains no heat.  In weather at the burst point it can only cool down, and
its status only get worse: a tick may overshoot the weather, from where the building would warm up
again, but pipes that come down so far have burst, and nothing moves any more.

## Main definitions

* `State.Forsaken` — a plant without control in such weather

## Main statements

* `State.Forsaken.after`, `State.Forsaken.run` — there is no way out
* `State.Forsaken.tick_le` — a tick does not make it warmer
* `State.Forsaken.status_after_le`, `State.Forsaken.status_run_le` — nothing makes its status
  better
* `Settings.no_way_back_in_frost` — what that means for every history with a crash

## Design notes

A plant may start below the burst point with intact pipes, and warm up in its first tick if the
weather is milder than that.  So there has to be a tick behind it, or a temperature above the burst
point, for a plant to be forsaken.
-/

namespace HeatingPlant

open Floating

namespace State

variable {s : State} {dynamics : Dynamics}

/-- A plant without control, in weather at the burst point, and not below that itself unless its
pipes have burst. -/
structure Forsaken (s : State) : Prop where
  /-- The controller is dead. -/
  dead : s.controllerRunning = false
  /-- The weather is a number, at the burst point at most. -/
  frost : s.outsideTemperature.isFinite = true ∧ s.outsideTemperature ≤ Status.burstPoint
  /-- Status, flag and indoor temperature say the same. -/
  coherent : s.Coherent
  /-- The indoor temperature is in range, or not a number. -/
  held : s.Held
  /-- Intact pipes are above the burst point. -/
  aboveBurstPoint : s.AboveBurstPoint

namespace Forsaken

/-- **No event leads out of it.** -/
theorem after (h : s.Forsaken) (dynamics : Dynamics) (event : Event) :
    (s.after dynamics event).Forsaken where
  dead := controllerRunning_run h.dead [event]
  frost := by
    rw [outsideTemperature_after]
    exact h.frost
  coherent := h.coherent.after dynamics event
  held := h.held.after dynamics event
  aboveBurstPoint := h.aboveBurstPoint.after h.coherent dynamics event

theorem run (h : s.Forsaken) (dynamics : Dynamics) (events : List Event) :
    (s.run dynamics events).Forsaken :=
  run_induction (fun _ event hs => hs.after dynamics event) h events

/-- Intact pipes are at least as warm as the weather. -/
theorem outside_le_inside (h : s.Forsaken) (hpipes : s.pipesBurst = false)
    (hnumber : s.insideTemperature.isNaN = false) :
    s.outsideTemperature ≤ s.insideTemperature := by
  have hwarm : ¬s.insideTemperature ≤ Status.burstPoint :=
    of_decide_eq_false (h.aboveBurstPoint hpipes)
  exact Floating.le_trans h.frost.2
    (Floating.le_of_lt (Floating.lt_of_not_le hnumber (by decide) hwarm))

/-- **A tick does not make it warmer**: what is a number does not rise, and what is not stays so. -/
theorem tick_le (h : s.Forsaken) {parameters : ThermalParameters} {dt : Float}
    (hsound : parameters.Sound dt) (hdt : 0 < real dt) :
    s.insideTemperature.isNaN = true ∧ (s.tick parameters dt).1.insideTemperature.isNaN = true ∨
      (s.tick parameters dt).1.insideTemperature ≤ s.insideTemperature := by
  cases hpipes : s.pipesBurst with
  | true =>
      have hnumber := (le_iff.mp (of_decide_eq_true (h.coherent.atBurstPoint hpipes))).1
      rw [tick_of_pipesBurst hpipes]
      exact .inr (le_iff.mpr ⟨hnumber, hnumber, le_rfl⟩)
  | false =>
      obtain hnan | hrange := h.held
      · exact .inl ⟨hnan, isNaN_tick hpipes hnan⟩
      · have hwarmer := h.outside_le_inside hpipes (isNaN_of_isFinite hrange.isFinite)
        exact .inr (insideTemperature_tick_le hsound hdt hrange h.frost.1 hpipes h.dead hwarmer)

/-- A tick does not make its status better: the temperature asks for one at least as severe, and a
burst is the most severe of all. -/
theorem status_tick_le (h : s.Forsaken) {parameters : ThermalParameters} {dt : Float}
    (hsound : parameters.Sound dt) (hdt : 0 < real dt) :
    s.status ≤ (s.tick parameters dt).1.status := by
  cases hpipes : s.pipesBurst with
  | true =>
      rw [tick_of_pipesBurst hpipes]
      exact Nat.le_refl _
  | false =>
      have hticked := (h.coherent.tick parameters dt).1
      rw [h.coherent.status_eq hpipes]
      cases hpipes' : (s.tick parameters dt).1.pipesBurst with
      | true =>
          rw [hticked.burst_iff.mpr hpipes']
          exact Status.le_burst _
      | false =>
          rw [hticked.status_eq hpipes']
          obtain ⟨hnan, hnan'⟩ | hle := h.tick_le hsound hdt
          · rw [Status.ofTemperature_of_isNaN hnan, Status.ofTemperature_of_isNaN hnan']
            exact Nat.le_refl _
          · exact Status.ofTemperature_anti hle

/-- **Nothing makes its status better.** -/
theorem status_after_le (h : s.Forsaken) (hsound : dynamics.thermal.Sound dynamics.dt)
    (hdt : 0 < real dynamics.dt) (event : Event) :
    s.status ≤ (s.after dynamics event).status := by
  cases event with
  | step =>
      show s.status ≤ (s.step dynamics).1.status
      rw [step_fst, status_control]
      exact h.status_tick_le hsound hdt
  | request action =>
      show s.status ≤ (serve s action).1.status
      rw [(writtenFrom_serve s action).status]
      exact Nat.le_refl _
  | crash =>
      show s.status ≤ s.crash.1.status
      rw [status_crash]
      exact Nat.le_refl _

theorem status_run_le (h : s.Forsaken) (hsound : dynamics.thermal.Sound dynamics.dt)
    (hdt : 0 < real dynamics.dt) (events : List Event) :
    s.status ≤ (s.run dynamics events).status := by
  induction events generalizing s with
  | nil => exact Nat.le_refl _
  | cons event rest ih =>
      exact Nat.le_trans (h.status_after_le hsound hdt event) (ih (h.after dynamics event))

end Forsaken

end State

namespace Settings

variable {settings : Settings}

/-- A plant with valid settings is forsaken after a crash in frost, once there was a step or as long
as it is above the burst point. -/
theorem forsaken_of_crash (hvalid : settings.Valid)
    (hfrost : settings.startup.outsideTemperature ≤ Status.burstPoint) {past : List Event}
    (hdead : (settings.startup.state.run settings.dynamics past).controllerRunning = false)
    (hpast : .step ∈ past ∨
      Status.burstPoint < (settings.startup.state.run settings.dynamics past).insideTemperature) :
    (settings.startup.state.run settings.dynamics past).Forsaken := by
  have hreaches : settings.Reaches (settings.startup.state.run settings.dynamics past) :=
    ⟨past, rfl⟩
  refine ⟨hdead, ?_, hreaches.coherent, hreaches.held hvalid, ?_⟩
  · rw [hreaches.outsideTemperature]
    exact ⟨hvalid.sound.outsideTemperature, hfrost⟩
  · obtain hstep | habove := hpast
    · exact (coherent_startup settings).aboveBurstPoint_of_step settings.dynamics hstep
    · refine fun _ => decide_eq_false fun hcold => ?_
      exact Floating.not_lt_of_le hcold habove

/-- **After a crash in frost there is no way back**: no tick makes the plant warmer, its temperature
stays a number if it is one, and its status never gets better. -/
theorem no_way_back_in_frost (hvalid : settings.Valid)
    (hfrost : settings.startup.outsideTemperature ≤ -2) {past : List Event}
    (hdead : (settings.startup.state.run settings.dynamics past).controllerRunning = false)
    (hpast : .step ∈ past ∨
      -2 < (settings.startup.state.run settings.dynamics past).insideTemperature)
    (later : List Event) :
    let t := (settings.startup.state.run settings.dynamics past).run settings.dynamics later
    let ticked := (t.tick settings.thermal settings.timing.dt).1
    ¬t.insideTemperature < ticked.insideTemperature ∧
      (t.insideTemperature.isNaN = false → ticked.insideTemperature ≤ t.insideTemperature) ∧
      ∀ more : List Event, t.status ≤ (t.run settings.dynamics more).status := by
  intro t ticked
  have hforsaken : t.Forsaken := (forsaken_of_crash hvalid hfrost hdead hpast).run _ later
  have hsound := hvalid.sound.thermalSound
  have hdt := hvalid.sound.real_dt_pos
  refine ⟨fun hlt => ?_, fun hnumber => ?_, hforsaken.status_run_le hsound hdt⟩
  · obtain ⟨hnan, -⟩ | hle := hforsaken.tick_le hsound hdt
    · rw [lt_iff, hnan] at hlt
      cases hlt.1
    · exact Floating.not_lt_of_le hle hlt
  · obtain ⟨hnan, -⟩ | hle := hforsaken.tick_le hsound hdt
    · rw [hnan] at hnumber
      cases hnumber
    · exact hle

/-- A building that loses three times its lead over the weather in one tick. -/
def draughty : Settings :=
  { reference with thermal := { ThermalParameters.reference with lossFactor := 3 } }

/-- After a crash at startup its first tick ends far below the weather; its pipes burst there, so
that the next one does not warm it up again. -/
theorem no_way_back_in_frost_draughty :
    let crashed := draughty.startup.state.run draughty.dynamics [.crash]
    draughty.Valid ∧ draughty.startup.outsideTemperature ≤ -2 ∧
      crashed.controllerRunning = false ∧ -2 < crashed.insideTemperature ∧
      (crashed.run draughty.dynamics [.step]).insideTemperature < crashed.outsideTemperature ∧
      ∀ later more : List Event,
        (crashed.run draughty.dynamics later).status ≤
          ((crashed.run draughty.dynamics later).run draughty.dynamics more).status ∧
        ¬(crashed.run draughty.dynamics later).insideTemperature <
          ((crashed.run draughty.dynamics later).tick draughty.thermal
            draughty.timing.dt).1.insideTemperature := by
  intro crashed
  have hvalid : draughty.Valid := by decide +kernel
  have hfrost : draughty.startup.outsideTemperature ≤ -2 := by decide +kernel
  have hdead : crashed.controllerRunning = false := rfl
  have habove : -2 < crashed.insideTemperature := by decide +kernel
  refine ⟨hvalid, hfrost, hdead, habove, by decide +kernel, fun later more => ?_⟩
  obtain ⟨hnot, -, hstatus⟩ := no_way_back_in_frost hvalid hfrost hdead (.inr habove) later
  exact ⟨hstatus more, hnot⟩

end Settings

end HeatingPlant
