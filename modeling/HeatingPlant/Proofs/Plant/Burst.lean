import HeatingPlant.Proofs.Floating.Arithmetic
import HeatingPlant.Proofs.Plant.Frame

/-!
# Burst pipes

The plant remembers twice that its pipes have burst, in its status and in a flag.  A tick looks at
the flag and the classification at the status; this file shows that the two never disagree.

## Main definitions

* `State.Coherent` — status, flag and indoor temperature say the same
* `State.AboveBurstPoint` — intact pipes are above the burst point

## Main statements

* `State.Coherent.after`, `State.Coherent.run` — no event takes them apart
* `State.Coherent.aboveBurstPoint_of_step` — intact pipes are above the burst point once there
  was a step
* `State.pipesBurst_run` — burst pipes stay burst
* `Settings.status_matches_pipes` — every state that a plant comes to is coherent, and what that
  means for its past and its future

## Design notes

A plant may start below the burst point: then its status is that of frozen pipes until the first
tick.  So coherence says what a burst implies about the temperature, and only a tick gives the
converse.
-/

namespace HeatingPlant

open Floating

/-- A temperature at the burst point is also at the freezing point. -/
theorem Status.ofTemperature_of_atBurstPoint {temperature : Float}
    (h : atBurstPoint temperature = true) : Status.ofTemperature temperature = .frozen := by
  have hburst : temperature ≤ Status.burstPoint := of_decide_eq_true h
  have hfrozen : Status.burstPoint ≤ Status.freezingPoint := by decide
  exact if_pos (Floating.le_trans hburst hfrozen)

namespace State

variable {s t : State} {dynamics : Dynamics}

/-- Status, flag and indoor temperature say the same. -/
structure Coherent (s : State) : Prop where
  /-- The status and the flag agree that the pipes have burst. -/
  burst_iff : s.status = .burst ↔ s.pipesBurst = true
  /-- The status of intact pipes is that of the temperature. -/
  status_eq : s.pipesBurst = false → s.status = .ofTemperature s.insideTemperature
  /-- Burst pipes stand at the temperature that burst them. -/
  atBurstPoint : s.pipesBurst = true → atBurstPoint s.insideTemperature = true

/-- Coherence is about three fields only. -/
theorem Coherent.congr (h : s.Coherent) (hinside : t.insideTemperature = s.insideTemperature)
    (hstatus : t.status = s.status) (hpipes : t.pipesBurst = s.pipesBurst) : t.Coherent := by
  refine ⟨?_, ?_, ?_⟩
  · rw [hstatus, hpipes]
    exact h.burst_iff
  · rw [hpipes, hstatus, hinside]
    exact h.status_eq
  · rw [hpipes, hinside]
    exact h.atBurstPoint

/-! ### A tick -/

/-- **Classifying a plant that is not burst makes it coherent**, and bursts it at the burst point.
-/
theorem coherent_reclassify (hstatus : s.status ≠ .burst) (hpipes : s.pipesBurst = false) :
    s.reclassify.Coherent ∧ (HeatingPlant.atBurstPoint s.reclassify.insideTemperature = true →
      s.reclassify.pipesBurst = true) := by
  unfold reclassify
  rw [if_neg hstatus]
  dsimp only
  split
  · rename_i hburst
    exact ⟨⟨by simp, by simp, fun _ => hburst.2⟩, fun _ => rfl⟩
  · rename_i hintact
    refine ⟨⟨?_, fun _ => rfl, ?_⟩, ?_⟩
    · simp [hpipes, Status.ofTemperature_ne_burst]
    · simp [hpipes]
    · -- at the burst point the other branch would have been taken
      intro hcold
      exact absurd ⟨Status.ofTemperature_of_atBurstPoint hcold, hcold⟩ hintact

namespace Coherent

theorem tick (h : s.Coherent) (parameters : ThermalParameters) (dt : Float) :
    (s.tick parameters dt).1.Coherent ∧
      (HeatingPlant.atBurstPoint (s.tick parameters dt).1.insideTemperature = true →
        (s.tick parameters dt).1.pipesBurst = true) := by
  cases hpipes : s.pipesBurst
  · have hstatus : s.status ≠ .burst := by
      rw [Ne, h.burst_iff, hpipes]
      exact Bool.false_ne_true
    rw [tick_of_intact hpipes]
    exact coherent_reclassify hstatus hpipes
  · rw [tick_of_pipesBurst hpipes]
    exact ⟨h, fun _ => hpipes⟩

/-- **No event takes status, flag and temperature apart.** -/
theorem after (h : s.Coherent) (dynamics : Dynamics) (event : Event) :
    (s.after dynamics event).Coherent := by
  cases event with
  | step =>
      exact (h.tick dynamics.thermal dynamics.dt).1.congr insideTemperature_control status_control
        pipesBurst_control
  | request action =>
      have hwritten := writtenFrom_serve s action
      exact h.congr hwritten.insideTemperature hwritten.status hwritten.pipesBurst
  | crash => exact h.congr insideTemperature_crash status_crash pipesBurst_crash

theorem run (h : s.Coherent) (dynamics : Dynamics) (events : List Event) :
    (s.run dynamics events).Coherent :=
  run_induction (fun _ event hs => hs.after dynamics event) h events

end Coherent

/-! ### Intact pipes -/

/-- Pipes that are intact are above the burst point. -/
def AboveBurstPoint (s : State) : Prop :=
  s.pipesBurst = false → HeatingPlant.atBurstPoint s.insideTemperature = false

/-- **A step bursts the pipes that it brings to the burst point.** -/
theorem Coherent.aboveBurstPoint_step (h : s.Coherent) (dynamics : Dynamics) :
    (s.after dynamics .step).AboveBurstPoint := by
  show (s.step dynamics).1.AboveBurstPoint
  rw [AboveBurstPoint, step_fst, pipesBurst_control, insideTemperature_control]
  intro hpipes
  refine eq_false_of_ne_true fun hcold => ?_
  rw [(h.tick dynamics.thermal dynamics.dt).2 hcold] at hpipes
  cases hpipes

/-- No other event cools anything. -/
theorem AboveBurstPoint.after (h : s.AboveBurstPoint) (hcoherent : s.Coherent) (dynamics : Dynamics)
    (event : Event) : (s.after dynamics event).AboveBurstPoint := by
  cases event with
  | step => exact hcoherent.aboveBurstPoint_step dynamics
  | request action =>
      have hwritten := writtenFrom_serve s action
      show (serve s action).1.AboveBurstPoint
      rw [AboveBurstPoint, hwritten.pipesBurst, hwritten.insideTemperature]
      exact h
  | crash =>
      show s.crash.1.AboveBurstPoint
      rw [AboveBurstPoint, pipesBurst_crash, insideTemperature_crash]
      exact h

theorem AboveBurstPoint.run (h : s.AboveBurstPoint) (hcoherent : s.Coherent) (dynamics : Dynamics)
    (events : List Event) : (s.run dynamics events).AboveBurstPoint :=
  (run_induction (P := fun s => s.Coherent ∧ s.AboveBurstPoint)
    (fun _ event hs => ⟨hs.1.after dynamics event, hs.2.after hs.1 dynamics event⟩)
    ⟨hcoherent, h⟩ events).2

/-- Once there was a step, intact pipes are above the burst point. -/
theorem Coherent.aboveBurstPoint_of_step (h : s.Coherent) (dynamics : Dynamics)
    {events : List Event} (hstep : .step ∈ events) : (s.run dynamics events).AboveBurstPoint := by
  obtain ⟨before, later, rfl⟩ := List.append_of_mem hstep
  have hbefore := h.run dynamics before
  rw [run_append, run_cons]
  exact (hbefore.aboveBurstPoint_step dynamics).run (hbefore.after dynamics .step) dynamics later

/-! ### No way back -/

theorem pipesBurst_after (h : s.pipesBurst = true) (event : Event) :
    (s.after dynamics event).pipesBurst = true := by
  cases event with
  | step =>
      show (s.step dynamics).1.pipesBurst = true
      rw [step_fst, pipesBurst_control, tick_of_pipesBurst h]
      exact h
  | request action => exact (writtenFrom_serve s action).pipesBurst.trans h
  | crash => exact pipesBurst_crash.trans h

/-- **Burst pipes stay burst.** -/
theorem pipesBurst_run (h : s.pipesBurst = true) (events : List Event) :
    (s.run dynamics events).pipesBurst = true :=
  run_induction (P := fun s => s.pipesBurst = true) (fun _ event hs => pipesBurst_after hs event) h
    events

end State

namespace Settings

variable {settings : Settings} {s : State}

theorem coherent_startup (settings : Settings) : settings.startup.state.Coherent := by
  refine ⟨?_, fun _ => rfl, ?_⟩
  · exact iff_of_false (Status.ofTemperature_ne_burst _) Bool.false_ne_true
  · intro h
    cases h

theorem Reaches.coherent (h : settings.Reaches s) : s.Coherent := by
  obtain ⟨events, rfl⟩ := h
  exact (coherent_startup settings).run settings.dynamics events

/-- **Status and flag agree about burst pipes in every state that a plant comes to**; a tick bursts
them at the burst point, and nothing mends them. -/
theorem status_matches_pipes (h : settings.Reaches s) :
    (s.status = .burst ↔ s.pipesBurst = true) ∧
      (s.pipesBurst = false → s.status = .ofTemperature s.insideTemperature) ∧
      (s.pipesBurst = true → s.insideTemperature ≤ -2) ∧
      ((s.tick settings.thermal settings.timing.dt).1.insideTemperature ≤ -2 →
        (s.tick settings.thermal settings.timing.dt).1.pipesBurst = true) ∧
      ∀ events : List Event,
        (s.pipesBurst = true → (s.run settings.dynamics events).pipesBurst = true) ∧
          (s.status = .burst → (s.run settings.dynamics events).status = .burst) := by
  have hcoherent := h.coherent
  refine ⟨hcoherent.burst_iff, hcoherent.status_eq, ?_, ?_, fun events => ⟨?_, ?_⟩⟩
  · exact fun hpipes => of_decide_eq_true (hcoherent.atBurstPoint hpipes)
  · exact fun hcold => (hcoherent.tick _ _).2 (decide_eq_true hcold)
  · exact fun hpipes => State.pipesBurst_run hpipes events
  · intro hstatus
    rw [((h.run events).coherent).burst_iff]
    exact State.pipesBurst_run (hcoherent.burst_iff.mp hstatus) events

/-- The reference plant started in a frozen building bursts its pipes at the first step. -/
theorem status_matches_pipes_frozen :
    let settings : Settings :=
      { reference with startup := { InitialConditions.reference with insideTemperature := -30 } }
    settings.Valid ∧ ∃ s, settings.Reaches s ∧ s.pipesBurst = true ∧ s.status = .burst := by
  intro settings
  have hreaches : settings.Reaches (settings.startup.state.run settings.dynamics [.step]) :=
    ⟨_, rfl⟩
  have hpipes : (settings.startup.state.run settings.dynamics [.step]).pipesBurst = true := by
    decide +kernel
  exact ⟨by decide +kernel, _, hreaches, hpipes, (status_matches_pipes hreaches).1.mpr hpipes⟩

end Settings

end HeatingPlant
