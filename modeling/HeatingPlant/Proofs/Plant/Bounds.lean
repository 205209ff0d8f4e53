import HeatingPlant.Proofs.Plant.Frame
import HeatingPlant.Proofs.Registers.Tenths
import HeatingPlant.Proofs.Settings.Soundness

/-!
# Valve and setpoint stay in range

Five writers touch the valve and the setpoint: the actuator, the controller, a crash, a client and
the startup.  Whatever the temperatures become on the way, none of them leaves the range.

## Main definitions

* `State.InBounds` — valve command, valve position and setpoint lie in their ranges

## Main statements

* `State.InBounds.after`, `State.InBounds.run` — no event leaves the ranges, under any dynamics
* `Settings.actuators_in_range` — every state that a plant with valid settings comes to is in
  range

## Design notes

No statement about one event mentions a temperature, so that one which is not a number does no
harm: the conversions to whole percent answer with a bounded number whatever they are given.
-/

namespace HeatingPlant

open Floating

/-! ### Setpoints on the wire -/

/-- **A word in range says a setpoint in range.** -/
theorem Tenths.decode_bounds {word : UInt16} (h : word ≤ largestSetpointWord) :
    0 ≤ Tenths.decode word ∧ Tenths.decode word ≤ largestSetpoint := by
  have hround := Tenths.rounds_decode word
  constructor
  · refine hround.ge denotes_zero.isFinite_eq ?_
    rw [denotes_zero.real_eq]
    positivity
  · have hforty : Denotes largestSetpoint 40 := denotes_ofNat 40 (by norm_num)
    have hle : (word.toNat : ℝ) ≤ 400 := by exact_mod_cast UInt16.le_iff_toNat_le.mp h
    refine hround.le hforty.isFinite_eq ?_
    rw [hforty.real_eq]
    linarith

namespace State

variable {s t : State}

/-- Valve and setpoint lie in their ranges. -/
structure InBounds (s : State) : Prop where
  /-- The valve is asked for a percentage. -/
  valveCommand : s.valveCommand ≤ Valve.fullyOpen
  /-- It stands at a percentage. -/
  valvePosition : s.valvePosition ≤ Valve.fullyOpen
  /-- The wanted temperature is not below the smallest setpoint. -/
  setpoint_nonneg : 0 ≤ s.setpoint
  /-- Nor above the largest. -/
  setpoint_le : s.setpoint ≤ largestSetpoint

namespace InBounds

theorem tick (h : s.InBounds) (parameters : ThermalParameters) (dt : Float) :
    (s.tick parameters dt).1.InBounds := by
  cases hburst : s.pipesBurst
  · refine ⟨?_, ?_, ?_, ?_⟩
    · rw [valveCommand_tick]
      exact h.valveCommand
    · -- wherever the valve was moved, it was held at fully open afterwards
      rw [valvePosition_tick hburst]
      exact Std.min_le_right
    · rw [setpoint_tick]
      exact h.setpoint_nonneg
    · rw [setpoint_tick]
      exact h.setpoint_le
  · rw [tick_of_pipesBurst hburst]
    exact h

theorem control (h : s.InBounds) (controller : Controller) : (s.control controller).InBounds := by
  refine ⟨?_, ?_, ?_, ?_⟩
  · unfold State.control
    split
    · exact controller.command_le _
    · exact h.valveCommand
  · rw [valvePosition_control]
    exact h.valvePosition
  · rw [setpoint_control]
    exact h.setpoint_nonneg
  · rw [setpoint_control]
    exact h.setpoint_le

theorem crash (h : s.InBounds) : s.crash.1.InBounds := by
  refine ⟨?_, ?_, ?_, ?_⟩
  · unfold State.crash
    split
    · exact UInt8.zero_le
    · exact h.valveCommand
  · rw [valvePosition_crash]
    exact h.valvePosition
  · rw [setpoint_crash]
    exact h.setpoint_nonneg
  · rw [setpoint_crash]
    exact h.setpoint_le

/-- Whatever a client writes, the ranges are kept. -/
theorem of_writtenFrom (h : s.InBounds) (hwritten : WrittenFrom s t) : t.InBounds := by
  have hsetpoint : 0 ≤ t.setpoint ∧ t.setpoint ≤ largestSetpoint := by
    rcases hwritten.setpoint with heq | ⟨word, hword, heq⟩
    · rw [heq]
      exact ⟨h.setpoint_nonneg, h.setpoint_le⟩
    · rw [heq]
      exact Tenths.decode_bounds hword
  refine ⟨?_, ?_, hsetpoint.1, hsetpoint.2⟩
  · rcases hwritten.valveCommand with heq | hle
    · rw [heq]
      exact h.valveCommand
    · exact hle
  · rw [hwritten.valvePosition]
    exact h.valvePosition

/-- **No event takes the valve or the setpoint out of range.** -/
theorem after (h : s.InBounds) (dynamics : Dynamics) (event : Event) :
    (s.after dynamics event).InBounds := by
  cases event with
  | step => exact (h.tick dynamics.thermal dynamics.dt).control dynamics.controller
  | request action => exact h.of_writtenFrom (writtenFrom_serve s action)
  | crash => exact h.crash

theorem run (h : s.InBounds) (dynamics : Dynamics) (events : List Event) :
    (s.run dynamics events).InBounds :=
  run_induction (fun _ event hs => hs.after dynamics event) h events

end InBounds

end State

namespace Settings

variable {settings : Settings} {s : State}

theorem inBounds_startup (h : settings.Valid) : settings.startup.state.InBounds :=
  ⟨h.sound.valve, h.sound.valve, h.sound.setpoint.1, h.sound.setpoint.2⟩

/-- **A plant with valid settings keeps its valve and its setpoint in range, whatever happens.** -/
theorem actuators_in_range (hvalid : settings.Valid) (h : settings.Reaches s) :
    s.valveCommand ≤ 100 ∧ s.valvePosition ≤ 100 ∧
      0 ≤ s.setpoint ∧ s.setpoint ≤ 40 := by
  obtain ⟨events, rfl⟩ := h
  have hbounds := (inBounds_startup hvalid).run settings.dynamics events
  exact ⟨hbounds.valveCommand, hbounds.valvePosition, hbounds.setpoint_nonneg,
    hbounds.setpoint_le⟩

/-- The reference plant with a valve that a client opens, one step before the controller dies. -/
theorem actuators_in_range_reference :
    Settings.reference.Valid ∧
      ∃ s, Settings.reference.Reaches s ∧ s.valvePosition = 55 ∧ s.valveCommand = 0 ∧
        (s.valveCommand ≤ 100 ∧ s.valvePosition ≤ 100 ∧
          0 ≤ s.setpoint ∧ s.setpoint ≤ 40) := by
  refine ⟨by decide, _, ⟨[.request (.writeSingle 3 0), .request (.writeSingle 1 100), .step,
    .crash], rfl⟩, by decide +kernel, by decide +kernel, ?_⟩
  exact actuators_in_range (by decide) ⟨_, rfl⟩

end Settings

end HeatingPlant
