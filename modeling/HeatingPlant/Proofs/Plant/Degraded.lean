import HeatingPlant.Proofs.Facility.Crash
import HeatingPlant.Proofs.Plant.Temperature

/-!
# The plant without its controller

Clients go on writing to a plant whose controller has crashed, and their writes are taken.  This
file shows that nothing comes of them: the heat, the status and the clocks depend on the number of
steps and on nothing else.

## Main definitions

* `State.SamePlant` — two states agree in every field that a client cannot write
* `State.afterSteps` — the states right after each step of time of a history
* `Settings.CrashLeadsTo` — a state came about from a crash in another

## Main statements

* `State.step_withChoices` — what clients chose does not enter a step without a controller
* `State.samePlant_run` — histories of a dead controller with equally many steps end in the same
  plant
* `Settings.heat_ignores_clients` — the same of every step on the way; the valve stays where the
  crash left it, and no heat is delivered

## Design notes

Two histories are compared through a third, in which nothing but steps happens.  A client's
request or a further crash does not leave the class of `State.SamePlant`, and a step maps classes
to classes.
-/

namespace HeatingPlant

open Floating

namespace State

variable {dynamics : Dynamics} {parameters : ThermalParameters} {dt : Float} {s t u : State}

/-! ### What clients choose -/

/-- The state with other values in the three fields that a client may write. -/
def withChoices (s : State) (command : UInt8) (setpoint : Float) (mode : ControlMode) : State :=
  { s with valveCommand := command, setpoint := setpoint, mode := mode }

/-- Two states agree in every field that a client cannot write. -/
structure SamePlant (s t : State) : Prop where
  insideTemperature : t.insideTemperature = s.insideTemperature
  outsideTemperature : t.outsideTemperature = s.outsideTemperature
  supplyTemperature : t.supplyTemperature = s.supplyTemperature
  status : t.status = s.status
  valvePosition : t.valvePosition = s.valvePosition
  heaterPower : t.heaterPower = s.heaterPower
  runtime : t.runtime = s.runtime
  ticksWithoutControl : t.ticksWithoutControl = s.ticksWithoutControl
  pipesBurst : t.pipesBurst = s.pipesBurst
  controllerRunning : t.controllerRunning = s.controllerRunning

theorem samePlant_withChoices (s : State) (command : UInt8) (setpoint : Float)
    (mode : ControlMode) : SamePlant s (s.withChoices command setpoint mode) :=
  ⟨rfl, rfl, rfl, rfl, rfl, rfl, rfl, rfl, rfl, rfl⟩

namespace SamePlant

theorem refl (s : State) : SamePlant s s := ⟨rfl, rfl, rfl, rfl, rfl, rfl, rfl, rfl, rfl, rfl⟩

theorem symm (h : SamePlant s t) : SamePlant t s where
  insideTemperature := h.insideTemperature.symm
  outsideTemperature := h.outsideTemperature.symm
  supplyTemperature := h.supplyTemperature.symm
  status := h.status.symm
  valvePosition := h.valvePosition.symm
  heaterPower := h.heaterPower.symm
  runtime := h.runtime.symm
  ticksWithoutControl := h.ticksWithoutControl.symm
  pipesBurst := h.pipesBurst.symm
  controllerRunning := h.controllerRunning.symm

theorem trans (hst : SamePlant s t) (htu : SamePlant t u) : SamePlant s u where
  insideTemperature := htu.insideTemperature.trans hst.insideTemperature
  outsideTemperature := htu.outsideTemperature.trans hst.outsideTemperature
  supplyTemperature := htu.supplyTemperature.trans hst.supplyTemperature
  status := htu.status.trans hst.status
  valvePosition := htu.valvePosition.trans hst.valvePosition
  heaterPower := htu.heaterPower.trans hst.heaterPower
  runtime := htu.runtime.trans hst.runtime
  ticksWithoutControl := htu.ticksWithoutControl.trans hst.ticksWithoutControl
  pipesBurst := htu.pipesBurst.trans hst.pipesBurst
  controllerRunning := htu.controllerRunning.trans hst.controllerRunning

/-- States of the same plant differ in what clients chose, and in nothing else. -/
theorem eq_withChoices (h : SamePlant s t) :
    t = s.withChoices t.valveCommand t.setpoint t.mode := by
  obtain ⟨h1, h2, h3, h4, h5, h6, h7, h8, h9, h10⟩ := h
  unfold withChoices
  rw [← h1, ← h2, ← h3, ← h4, ← h5, ← h6, ← h7, ← h8, ← h9, ← h10]

theorem of_writtenFrom (h : WrittenFrom s t) : SamePlant s t := by
  rw [h.eq_with]
  exact samePlant_withChoices s _ _ _

end SamePlant

/-! ### A step without a controller -/

theorem moveValve_of_not_running (h : s.controllerRunning = false) :
    s.moveValve parameters dt =
      { s with valvePosition := min s.valvePosition Valve.fullyOpen } := by
  simp [moveValve, h]

theorem reclassify_withChoices (s : State) (command : UInt8) (setpoint : Float)
    (mode : ControlMode) :
    (s.withChoices command setpoint mode).reclassify =
      s.reclassify.withChoices command setpoint mode := by
  unfold reclassify withChoices
  dsimp only
  split
  · rfl
  · split <;> rfl

theorem tick_withChoices (h : s.controllerRunning = false) (command : UInt8) (setpoint : Float)
    (mode : ControlMode) :
    ((s.withChoices command setpoint mode).tick parameters dt).1 =
      (s.tick parameters dt).1.withChoices command setpoint mode := by
  cases hpipes : s.pipesBurst
  · have hpipes' : (s.withChoices command setpoint mode).pipesBurst = false := hpipes
    have hdead : s.advanceClocks.controllerRunning = false := h
    have hdead' : (s.withChoices command setpoint mode).advanceClocks.controllerRunning = false := h
    rw [tick_of_intact hpipes, tick_of_intact hpipes', moveValve_of_not_running hdead,
      moveValve_of_not_running hdead', ← reclassify_withChoices]
    -- neither the clocks nor the exchange of heat look at the three fields
    rfl
  · have hpipes' : (s.withChoices command setpoint mode).pipesBurst = true := hpipes
    rw [tick_of_pipesBurst hpipes, tick_of_pipesBurst hpipes']

/-- **What clients chose does not enter a step without a controller.** -/
theorem step_withChoices (h : s.controllerRunning = false) (command : UInt8) (setpoint : Float)
    (mode : ControlMode) :
    ((s.withChoices command setpoint mode).step dynamics).1 =
      (s.step dynamics).1.withChoices command setpoint mode := by
  have hdead : (s.tick dynamics.thermal dynamics.dt).1.controllerRunning = false :=
    controllerRunning_tick.trans h
  have hdead' : ((s.withChoices command setpoint mode).tick dynamics.thermal
      dynamics.dt).1.controllerRunning = false := controllerRunning_tick.trans h
  rw [step_fst, step_fst, control_of_not_running hdead, control_of_not_running hdead',
    tick_withChoices h]

/-! ### Histories without a controller -/

/-- A step takes the same plant to the same plant. -/
theorem SamePlant.step (h : SamePlant s t) (hdead : s.controllerRunning = false) :
    SamePlant (s.after dynamics .step) (t.after dynamics .step) := by
  rw [h.eq_withChoices]
  show SamePlant (s.step dynamics).1 ((s.withChoices _ _ _).step dynamics).1
  rw [step_withChoices hdead]
  exact samePlant_withChoices _ _ _ _

/-- Everything else leaves it as it is. -/
theorem samePlant_after (hdead : s.controllerRunning = false) {event : Event}
    (hevent : event ≠ .step) : SamePlant s (s.after dynamics event) := by
  cases event with
  | step => exact absurd rfl hevent
  | request action => exact .of_writtenFrom (writtenFrom_serve s action)
  | crash =>
      show SamePlant s s.crash.1
      rw [crash_of_not_running hdead]
      exact .refl s

/-- A history comes to what its steps alone come to. -/
theorem samePlant_run_steps (dynamics : Dynamics) (h : SamePlant s t)
    (hdead : s.controllerRunning = false) (events : List Event) :
    SamePlant (s.run dynamics (List.replicate (events.count .step) .step))
      (t.run dynamics events) := by
  induction events generalizing s t with
  | nil => exact h
  | cons event rest ih =>
      by_cases hevent : event = .step
      · subst hevent
        rw [List.count_cons_self, List.replicate_succ, run_cons, run_cons]
        exact ih (h.step hdead) (controllerRunning_after hdead .step)
      · have hdead' : t.controllerRunning = false := h.controllerRunning.trans hdead
        rw [List.count_cons_of_ne hevent, run_cons]
        exact ih (h.trans (samePlant_after hdead' hevent)) hdead

/-- **Two histories with equally many steps come to the same plant**, whatever else happens in them.
-/
theorem samePlant_run (hdead : s.controllerRunning = false) {first second : List Event}
    (hsteps : first.count .step = second.count .step) :
    SamePlant (s.run dynamics first) (s.run dynamics second) := by
  have hfirst := samePlant_run_steps dynamics (.refl s) hdead first
  have hsecond := samePlant_run_steps dynamics (.refl s) hdead second
  rw [hsteps] at hfirst
  exact hfirst.symm.trans hsecond

/-! ### Right after each step -/

/-- The states right after each step of time of a history. -/
def afterSteps (dynamics : Dynamics) (s : State) : List Event → List State
  | [] => []
  | .step :: rest => s.after dynamics .step :: (s.after dynamics .step).afterSteps dynamics rest
  | event :: rest => (s.after dynamics event).afterSteps dynamics rest

theorem afterSteps_cons_of_ne {event : Event} (h : event ≠ .step) (rest : List Event) :
    s.afterSteps dynamics (event :: rest) = (s.after dynamics event).afterSteps dynamics rest := by
  cases event with
  | step => exact absurd rfl h
  | request action => rfl
  | crash => rfl

theorem length_afterSteps (events : List Event) :
    (s.afterSteps dynamics events).length = events.count .step := by
  induction events generalizing s with
  | nil => rfl
  | cons event rest ih =>
      by_cases hevent : event = .step
      · subst hevent
        rw [afterSteps, List.length_cons, ih, List.count_cons_self]
      · rw [afterSteps_cons_of_ne hevent, ih, List.count_cons_of_ne hevent]

/-- The state after a step is that of a history with so many steps. -/
theorem exists_run_eq_getElem_afterSteps {events : List Event} {k : Nat}
    (hk : k < (s.afterSteps dynamics events).length) :
    ∃ before : List Event, before.count .step = k + 1 ∧
      s.run dynamics before = (s.afterSteps dynamics events)[k] := by
  induction events generalizing s k with
  | nil => cases hk
  | cons event rest ih =>
      by_cases hevent : event = .step
      · subst hevent
        cases k with
        | zero => exact ⟨[.step], rfl, rfl⟩
        | succ k =>
            obtain ⟨before, hcount, hrun⟩ := ih (Nat.lt_of_succ_lt_succ hk)
            exact ⟨.step :: before, by rw [List.count_cons_self, hcount], hrun⟩
      · simp only [afterSteps_cons_of_ne hevent] at hk ⊢
        obtain ⟨before, hcount, hrun⟩ := ih hk
        exact ⟨event :: before, by rw [List.count_cons_of_ne hevent, hcount], hrun⟩

/-- **Step for step, two histories with equally many steps go through the same plants.** -/
theorem forall₂_samePlant_afterSteps (hdead : s.controllerRunning = false)
    {first second : List Event} (hsteps : first.count .step = second.count .step) :
    List.Forall₂ SamePlant (s.afterSteps dynamics first) (s.afterSteps dynamics second) := by
  rw [List.forall₂_iff_get]
  refine ⟨by rw [length_afterSteps, length_afterSteps, hsteps], fun k hfirst hsecond => ?_⟩
  obtain ⟨before, hcount, hrun⟩ := exists_run_eq_getElem_afterSteps hfirst
  obtain ⟨before', hcount', hrun'⟩ := exists_run_eq_getElem_afterSteps hsecond
  rw [List.get_eq_getElem, List.get_eq_getElem, ← hrun, ← hrun']
  exact samePlant_run hdead (hcount.trans hcount'.symm)

/-! ### Valve and heat -/

/-- No event moves the valve of a dead controller. -/
theorem valvePosition_after (hdead : s.controllerRunning = false)
    (hvalve : s.valvePosition ≤ Valve.fullyOpen) (event : Event) :
    (s.after dynamics event).valvePosition = s.valvePosition := by
  by_cases hevent : event = .step
  · subst hevent
    show (s.step dynamics).1.valvePosition = _
    rw [step_fst, valvePosition_control]
    cases hpipes : s.pipesBurst
    · rw [valvePosition_tick hpipes, moveValve_of_not_running hdead]
      exact if_pos hvalve
    · rw [tick_of_pipesBurst hpipes]
  · exact (samePlant_after hdead hevent).valvePosition

theorem valvePosition_run (hdead : s.controllerRunning = false)
    (hvalve : s.valvePosition ≤ Valve.fullyOpen) (events : List Event) :
    (s.run dynamics events).valvePosition = s.valvePosition := by
  refine (run_induction (P := fun t => t.controllerRunning = false ∧
    t.valvePosition = s.valvePosition) ?_ ⟨hdead, rfl⟩ events).2
  rintro t event ⟨htdead, htvalve⟩
  exact ⟨controllerRunning_after htdead event,
    (valvePosition_after htdead (htvalve ▸ hvalve) event).trans htvalve⟩

/-- The delivered power of an intact plant is what the opening of its moved valve lets through. -/
theorem heaterPower_tick (h : s.pipesBurst = false) :
    (s.tick parameters dt).1.heaterPower =
      (s.moveValve parameters dt).opening * parameters.maxPower := by
  rw [tick_of_intact h, reclassify_eq]
  rfl

/-- **A step without a controller delivers no heat.**  The power may be a negative zero. -/
theorem heaterPower_after_step (hpower : dynamics.thermal.maxPower.isFinite = true)
    (hdead : s.controllerRunning = false) (hpipes : s.pipesBurst = false) :
    (s.after dynamics .step).heaterPower == 0 := by
  have hstep : (s.after dynamics .step).heaterPower =
      (s.moveValve dynamics.thermal dynamics.dt).opening * dynamics.thermal.maxPower := by
    show (s.step dynamics).1.heaterPower = _
    rw [step_fst, control_of_not_running (controllerRunning_tick.trans hdead),
      heaterPower_tick hpipes]
  have hshut : (s.moveValve dynamics.thermal dynamics.dt).opening = 0 := by
    rw [moveValve_of_not_running hdead, opening]
    simp [hdead]
  have hround := rounds_mul (x := 0) (by decide) hpower
  rw [real_zero, zero_mul] at hround
  rw [hstep, hshut, beq_iff]
  refine ⟨hround.isNaN_eq, by decide, ?_⟩
  rw [hround.extended_eq, nearest_zero, extended_zero]

/-! ### The moment of the crash -/

/-- Only a crash takes a running controller down. -/
theorem eq_crash_of_controllerRunning (hrunning : s.controllerRunning = true) {event : Event}
    (hdead : (s.after dynamics event).controllerRunning = false) : event = .crash := by
  cases event with
  | step =>
      change (s.step dynamics).1.controllerRunning = false at hdead
      rw [step_fst, controllerRunning_control, controllerRunning_tick, hrunning] at hdead
      cases hdead
  | request action =>
      change (serve s action).1.controllerRunning = false at hdead
      rw [(writtenFrom_serve s action).controllerRunning, hrunning] at hdead
      cases hdead
  | crash => rfl

end State

namespace Settings

variable {settings : Settings} {s t : State}

/-- The plant came to `s` after its controller had crashed in `t`. -/
def CrashLeadsTo (settings : Settings) (t s : State) : Prop :=
  t.controllerRunning = true ∧ ∃ before later : List Event,
    settings.startup.state.run settings.dynamics before = t ∧
      (t.after settings.dynamics .crash).run settings.dynamics later = s

theorem exists_crashLeadsTo (h : settings.Reaches s) (hdead : s.controllerRunning = false) :
    ∃ t, settings.CrashLeadsTo t s := by
  obtain ⟨events, rfl⟩ := h
  have hstart : ¬settings.startup.state.controllerRunning = false := Bool.noConfusion
  obtain ⟨before, event, later, rfl, hrunning, hcrashed⟩ := State.exists_event
    (P := fun s => s.controllerRunning = false) hstart hdead
  have hrunning' := eq_true_of_ne_false hrunning
  obtain rfl := State.eq_crash_of_controllerRunning hrunning' hcrashed
  exact ⟨_, hrunning', before, later, rfl, by rw [State.run_append, State.run_cons]⟩

/-- The valve stands where it stood at the crash. -/
theorem CrashLeadsTo.valvePosition_eq (hvalid : settings.Valid) (h : settings.CrashLeadsTo t s) :
    s.valvePosition = t.valvePosition := by
  obtain ⟨-, before, later, rfl, rfl⟩ := h
  have hbounds := ((inBounds_startup hvalid).run settings.dynamics before).crash
  exact (State.valvePosition_run (State.controllerRunning_crash _)
    hbounds.valvePosition later).trans
    State.valvePosition_crash

/-- **After the crash of the controller no client has any influence on the heat**: histories with
equally many steps go through the same plants, the valve stays where the crash left it, and no step
of an intact plant delivers heat. -/
theorem heat_ignores_clients (hvalid : settings.Valid) (h : settings.Reaches s)
    (hdead : s.controllerRunning = false) :
    (∀ first second : List Event, first.count .step = second.count .step →
      List.Forall₂ State.SamePlant (s.afterSteps settings.dynamics first)
        (s.afterSteps settings.dynamics second)) ∧
    (∃ t, settings.CrashLeadsTo t s) ∧
    (∀ t, settings.CrashLeadsTo t s → ∀ events : List Event,
      (s.run settings.dynamics events).valvePosition = t.valvePosition) ∧
    (∀ events : List Event, (s.run settings.dynamics events).pipesBurst = false →
      ((s.run settings.dynamics events).after settings.dynamics .step).heaterPower == 0) := by
  refine ⟨fun first second hsteps => State.forall₂_samePlant_afterSteps hdead hsteps,
    exists_crashLeadsTo h hdead, ?_, ?_⟩
  · rintro t ⟨hrunning, before, later, hbefore, rfl⟩ events
    refine CrashLeadsTo.valvePosition_eq hvalid ⟨hrunning, before, later ++ events, hbefore, ?_⟩
    rw [State.run_append]
  · intro events hpipes
    exact State.heaterPower_after_step hvalid.sound.maxPower.1
      (State.controllerRunning_run hdead events) hpipes

/-- The reference plant after a crash: a client who opens the valve and asks for warmth, and one who
sends a second crash, see the same two steps. -/
theorem heat_ignores_clients_reference :
    let crashed := reference.startup.state.run reference.dynamics [.step, .crash]
    reference.Valid ∧ reference.Reaches crashed ∧ crashed.controllerRunning = false ∧
      List.Forall₂ State.SamePlant
        (crashed.afterSteps reference.dynamics
          [.request (.writeMultiple 1 [100, 400, 1]), .step, .request (.writeSingle 3 0), .step])
        (crashed.afterSteps reference.dynamics [.step, .crash, .step]) := by
  intro crashed
  have hvalid : reference.Valid := by decide
  have hreaches : reference.Reaches crashed := ⟨_, rfl⟩
  have hdead : crashed.controllerRunning = false := by decide +kernel
  exact ⟨hvalid, hreaches, hdead,
    (heat_ignores_clients hvalid hreaches hdead).1 _ _ (by decide)⟩

end Settings

end HeatingPlant
