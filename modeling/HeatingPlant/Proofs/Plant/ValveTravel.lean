import HeatingPlant.Proofs.Facility.LastWriter
import HeatingPlant.Proofs.Floating.Whole
import HeatingPlant.Proofs.Plant.AfterBurst
import HeatingPlant.Proofs.Plant.Temperature

/-!
# The valve travels to its command

Under a running controller every tick brings the valve nearer to its command, by a number of
percent that is the same for every tick, until it stands there.  It is never stuck, since valid
settings let it travel by one percent at least; and it never passes the command.

## Main definitions

* `State.valveGap` — the distance between the valve and its command
* `State.Approaches` — the valve came nearer to its command by some percent, or all the way
* `State.ByHand` — a client commands the valve, and the actuator works
* `Event.HandsOff` — nobody writes the command or the mode, and the controller does not crash
* `State.IntactAtSteps` — the pipes are whole whenever a step begins

## Main statements

* `Valve.toNat_slew` — where the actuator moves the valve
* `Settings.le_travel_iff` — how far it travels per tick
* `State.approaches_tick`, `State.ByHand.approaches_run` — one tick, and any number of steps by
  hand
* `Settings.valve_approaches` — plants with valid settings

## Design notes

The distances that single steps cover add up, also where the valve arrives on the way, because a
distance that is cut off at zero stays zero.  So a run is a composition of steps, and requests that
leave the valve alone are steps of zero percent.
-/

namespace HeatingPlant

open Floating Modbus

/-! ### The actuator -/

/-- **Where the actuator moves the valve**: to the command, or by `travel` percent if that is
nearer. -/
theorem Valve.toNat_slew {position command : UInt8} {travel : ℤ}
    (hposition : position ≤ fullyOpen) (hcommand : command ≤ fullyOpen)
    (htravel : 0 ≤ travel) :
    ((slew position command travel).toNat : ℤ) =
      max (position.toNat - travel) (min (position.toNat + travel) command.toNat) := by
  rw [UInt8.le_iff_toNat_le] at hposition hcommand
  change position.toNat ≤ 100 at hposition
  change command.toNat ≤ 100 at hcommand
  unfold slew
  rw [toNat_ofPercent, Number.hold]
  split
  · omega
  · split
    · omega
    · omega

namespace State

variable {s t u : State} {near far : ℤ}

/-- The distance between the valve and its command [%]. -/
def valveGap (s : State) : ℕ := ((s.valveCommand.toNat : ℤ) - s.valvePosition.toNat).natAbs

/-- The command is the same in both states, and the valve has come nearer to it by `travel`
percent, or all the way, without passing it. -/
structure Approaches (travel : ℤ) (s t : State) : Prop where
  /-- The command is kept. -/
  valveCommand : t.valveCommand = s.valveCommand
  /-- The distance shrinks by `travel`, or to nothing. -/
  valveGap : (t.valveGap : ℤ) = max 0 (s.valveGap - travel)
  /-- The valve stands between where it was and its command. -/
  between :
    (s.valvePosition ≤ t.valvePosition ∧ t.valvePosition ≤ s.valveCommand) ∨
      (s.valveCommand ≤ t.valvePosition ∧ t.valvePosition ≤ s.valvePosition)

namespace Approaches

/-- What leaves the valve and its command alone is an approach by nothing. -/
theorem of_eq (hcommand : t.valveCommand = s.valveCommand)
    (hposition : t.valvePosition = s.valvePosition) : s.Approaches 0 t where
  valveCommand := hcommand
  valveGap := by
    rw [State.valveGap, hcommand, hposition, State.valveGap]
    omega
  between := by
    rw [hposition]
    simp only [UInt8.le_iff_toNat_le]
    omega

/-- **Distances add up**, also where the valve arrives on the way. -/
theorem trans (hst : s.Approaches near t) (htu : t.Approaches far u) (hfar : 0 ≤ far) :
    s.Approaches (near + far) u where
  valveCommand := htu.valveCommand.trans hst.valveCommand
  valveGap := by
    have hfirst := hst.valveGap
    have hsecond := htu.valveGap
    omega
  between := by
    have hfirst := hst.between
    have hsecond := htu.between
    rw [hst.valveCommand] at hsecond
    simp only [UInt8.le_iff_toNat_le] at hfirst hsecond ⊢
    omega

/-- A valve that stands where it should stays there. -/
theorem arrived (h : s.Approaches near t) (harrived : s.valvePosition = s.valveCommand) :
    t.valvePosition = s.valvePosition := by
  have hbetween := h.between
  rw [← harrived] at hbetween
  simp only [UInt8.le_iff_toNat_le] at hbetween
  exact UInt8.toNat_inj.mp (by omega)

end Approaches

/-! ### One tick -/

/-- **A tick of an intact plant under a running controller brings the valve nearer to its
command.** -/
theorem approaches_tick {parameters : ThermalParameters} {dt : Float} (hbounds : s.InBounds)
    (hrunning : s.controllerRunning = true) (hintact : s.pipesBurst = false)
    (htravel : 0 ≤ Thermal.travel parameters dt) :
    s.Approaches (Thermal.travel parameters dt) (s.tick parameters dt).1 := by
  have hslew := Valve.toNat_slew hbounds.valvePosition hbounds.valveCommand htravel
  have hmoved : (s.tick parameters dt).1.valvePosition =
      Valve.slew s.valvePosition s.valveCommand (Thermal.travel parameters dt) := by
    rw [valvePosition_tick hintact, moveValve, if_pos hrunning]
    exact if_pos (Valve.slew_le _ _ _)
  refine ⟨valveCommand_tick, ?_, ?_⟩
  · rw [State.valveGap, valveCommand_tick, hmoved, State.valveGap]
    omega
  · rw [hmoved]
    simp only [UInt8.le_iff_toNat_le]
    omega

end State

/-! ### Steps by hand -/

/-- What may happen while nobody has a hand in the valve: steps, and requests that write neither its
command nor the mode.  A crash shuts the command. -/
def Event.HandsOff : Event → Prop
  | step => True
  | request action => action.leaves? .valveCommand = none ∧ action.leaves? .mode = none
  | crash => False

instance : DecidablePred Event.HandsOff
  | .step => .isTrue trivial
  | .request _ => inferInstanceAs (Decidable (_ ∧ _))
  | .crash => .isFalse id

namespace State

variable {s t : State} {dynamics : Dynamics} {event : Event} {events : List Event}

/-- Whenever a step begins, the pipes are whole. -/
def IntactAtSteps (dynamics : Dynamics) (s : State) (events : List Event) : Prop :=
  ∀ before later, events = before ++ .step :: later → (s.run dynamics before).pipesBurst = false

theorem IntactAtSteps.head {rest : List Event} (h : s.IntactAtSteps dynamics (.step :: rest)) :
    s.pipesBurst = false := h [] rest rfl

theorem IntactAtSteps.tail {rest : List Event} (h : s.IntactAtSteps dynamics (event :: rest)) :
    (s.after dynamics event).IntactAtSteps dynamics rest := by
  rintro before later rfl
  exact h (event :: before) later rfl

/-- Pipes that are whole in the end were whole at every step, since nothing mends them. -/
theorem intactAtSteps_of_run (h : (s.run dynamics events).pipesBurst = false) :
    s.IntactAtSteps dynamics events := by
  rintro before later rfl
  refine eq_false_of_ne_true fun hburst => ?_
  rw [run_append, pipesBurst_run hburst] at h
  cases h

/-- A client commands the valve, and the actuator works. -/
structure ByHand (s : State) : Prop where
  inBounds : s.InBounds
  controllerRunning : s.controllerRunning = true
  mode : s.mode = .manual

theorem underControl_of_manual (h : s.mode = .manual) : s.underControl = false := by
  simp [underControl, h]

namespace ByHand

/-- A step is a tick, since the controller is not in charge. -/
theorem after_step (h : s.ByHand) :
    s.after dynamics .step = (s.tick dynamics.thermal dynamics.dt).1 :=
  control_of_not_underControl (underControl_of_manual (mode_tick.trans h.mode))

theorem after (h : s.ByHand) (hoff : event.HandsOff) : (s.after dynamics event).ByHand := by
  refine ⟨h.inBounds.after dynamics event, ?_, ?_⟩
  · cases event with
    | step => exact (h.after_step ▸ controllerRunning_tick).trans h.controllerRunning
    | request action =>
        exact (writtenFrom_serve s action).controllerRunning.trans h.controllerRunning
    | crash => exact hoff.elim
  · cases event with
    | step =>
        rw [h.after_step, mode_tick]
        exact h.mode
    | request action =>
        show (serve s action).1.mode = _
        rw [serve_eq_take, take, hoff.2]
        exact h.mode
    | crash => exact hoff.elim

/-- A request that writes neither the command nor the mode leaves the valve alone. -/
theorem approaches_request {action : Action} (hoff : (Event.request action).HandsOff) :
    s.Approaches 0 (s.after dynamics (.request action)) := by
  refine .of_eq ?_ (writtenFrom_serve s action).valvePosition
  show (serve s action).1.valveCommand = _
  rw [serve_eq_take, take, hoff.1]
  rfl

theorem approaches_step (h : s.ByHand) (hintact : s.pipesBurst = false)
    (htravel : 0 ≤ Thermal.travel dynamics.thermal dynamics.dt) :
    s.Approaches (Thermal.travel dynamics.thermal dynamics.dt) (s.after dynamics .step) := by
  rw [h.after_step]
  exact approaches_tick h.inBounds h.controllerRunning hintact htravel

/-- **Under a client's command the valve comes nearer by the travel of every step.** -/
theorem approaches_run (h : s.ByHand) (htravel : 0 ≤ Thermal.travel dynamics.thermal dynamics.dt)
    (hoff : ∀ event ∈ events, event.HandsOff) (hintact : s.IntactAtSteps dynamics events) :
    s.Approaches (events.count .step * Thermal.travel dynamics.thermal dynamics.dt)
      (s.run dynamics events) := by
  induction events generalizing s with
  | nil =>
      rw [List.count_nil, Nat.cast_zero, zero_mul]
      exact .of_eq rfl rfl
  | cons event rest ih =>
      obtain ⟨hevent, hrest⟩ := List.forall_mem_cons.mp hoff
      have hlater := ih (h.after hevent) hrest hintact.tail
      have hnonneg : 0 ≤ rest.count .step * Thermal.travel dynamics.thermal dynamics.dt := by
        positivity
      cases event with
      | step =>
          have hfirst := h.approaches_step hintact.head htravel
          rw [List.count_cons_self, Nat.cast_add_one, add_one_mul, add_comm]
          exact hfirst.trans hlater hnonneg
      | request action =>
          have hcount : (Event.request action :: rest).count .step = 0 + rest.count .step := by
            rw [List.count_cons_of_ne Event.noConfusion, zero_add]
          have hfirst : s.Approaches 0 (s.after dynamics (.request action)) :=
            approaches_request hevent
          rw [hcount, Nat.cast_add, Nat.cast_zero, add_mul, zero_mul]
          exact hfirst.trans hlater hnonneg
      | crash => exact hevent.elim

/-- A valve that stands where a client wants it stands there after the next event, too. -/
theorem arrived_after (h : s.ByHand) (htravel : 0 ≤ Thermal.travel dynamics.thermal dynamics.dt)
    (hoff : event.HandsOff) (harrived : s.valvePosition = s.valveCommand) :
    (s.after dynamics event).valveCommand = s.valveCommand ∧
      (s.after dynamics event).valvePosition = s.valvePosition := by
  cases event with
  | step =>
      cases hburst : s.pipesBurst with
      | false =>
          have hstep := h.approaches_step hburst htravel
          exact ⟨hstep.valveCommand, hstep.arrived harrived⟩
      | true =>
          rw [after_step_of_pipesBurst hburst]
          exact ⟨rfl, rfl⟩
  | request action =>
      have hrequest : s.Approaches 0 (s.after dynamics (.request action)) :=
        approaches_request hoff
      exact ⟨hrequest.valveCommand, hrequest.arrived harrived⟩
  | crash => exact hoff.elim

/-- **It stays there**, also through a burst. -/
theorem arrived_run (h : s.ByHand) (htravel : 0 ≤ Thermal.travel dynamics.thermal dynamics.dt)
    (hoff : ∀ event ∈ events, event.HandsOff) (harrived : s.valvePosition = s.valveCommand) :
    (s.run dynamics events).valveCommand = s.valveCommand ∧
      (s.run dynamics events).valvePosition = s.valvePosition := by
  induction events generalizing s with
  | nil => exact ⟨rfl, rfl⟩
  | cons event rest ih =>
      obtain ⟨hevent, hrest⟩ := List.forall_mem_cons.mp hoff
      obtain ⟨hcommand, hposition⟩ := h.arrived_after htravel hevent harrived
      obtain ⟨hcommand', hposition'⟩ :=
        ih (h.after hevent) hrest (by rw [hcommand, hposition, harrived])
      exact ⟨hcommand'.trans hcommand, hposition'.trans hposition⟩

end ByHand

end State

/-! ### Valid settings -/

namespace Settings

variable {settings : Settings}

/-- The valve's speed times the length of a tick is a number, and not less than one. -/
theorem Sound.one_le_slewRate_mul_dt (h : settings.Sound) :
    1 ≤ settings.thermal.slewRate * settings.timing.dt :=
  Floating.le_of_not_lt (rounds_mul h.slewRate.1 settings.timing.isFinite_dt).isNaN_eq (by decide)
    h.travel

/-- **How far the valve travels per tick**: the whole part of what its speed makes of the length
of a tick, as far as 32 bits hold it; a product that overflowed counts as one beyond them. -/
theorem le_travel_iff (hvalid : settings.Valid) {percent : ℕ} :
    (percent : ℤ) ≤ Thermal.travel settings.thermal settings.timing.dt ↔
      percent ≤ 2147483647 ∧
        ((percent : ℝ) : EReal) ≤ extended (settings.thermal.slewRate * settings.timing.dt) :=
  le_toInt32_iff (Floating.le_trans (by decide) hvalid.sound.one_le_slewRate_mul_dt)

/-- The valve travels by one percent at least. -/
theorem one_le_travel (hvalid : settings.Valid) :
    1 ≤ Thermal.travel settings.thermal settings.timing.dt := by
  have hone : extended 1 = ((1 : ℕ) : ℝ) := by
    have := denotes_ofNat 1 (by norm_num)
    rw [extended_eq_real this.isFinite_eq, this.real_eq]
  have hle : ((1 : ℕ) : ℤ) ≤ Thermal.travel settings.thermal settings.timing.dt := by
    refine (le_travel_iff hvalid).mpr ⟨by norm_num, ?_⟩
    rw [← hone]
    exact (le_iff.mp hvalid.sound.one_le_slewRate_mul_dt).2.2
  exact_mod_cast hle

/-- **The valve is never stuck and never overshoots.**  Under valid settings it travels by one
percent per tick at least, and in whatever state the plant comes to, a tick of the intact plant
under a running controller brings the valve nearer to its command by that much, or all the way.
So does every step while a client commands the valve and nobody writes the command or the mode any
more, as long as the pipes are whole when the step begins; and a valve that has come to its
command stays there. -/
theorem valve_approaches (hvalid : settings.Valid) :
    let travel := Thermal.travel settings.thermal settings.timing.dt
    1 ≤ travel ∧
    ∀ s, settings.Reaches s → s.controllerRunning = true →
      (s.pipesBurst = false →
        s.Approaches travel (s.tick settings.thermal settings.timing.dt).1) ∧
      (s.mode = .manual → ∀ events, (∀ event ∈ events, event.HandsOff) →
        let t := s.run settings.dynamics events
        (s.IntactAtSteps settings.dynamics events →
          s.Approaches (events.count .step * travel) t) ∧
        (s.valvePosition = s.valveCommand →
          t.valveCommand = s.valveCommand ∧ t.valvePosition = s.valvePosition)) := by
  intro travel
  have htravel : 0 ≤ travel := zero_le_one.trans (one_le_travel hvalid)
  refine ⟨one_le_travel hvalid, ?_⟩
  rintro s ⟨before, rfl⟩ hrunning
  have hbounds := (inBounds_startup hvalid).run settings.dynamics before
  refine ⟨fun hintact => State.approaches_tick hbounds hrunning hintact htravel, ?_⟩
  intro hmode events hoff t
  have hmanual := State.ByHand.mk hbounds hrunning hmode
  exact ⟨hmanual.approaches_run htravel hoff, hmanual.arrived_run htravel hoff⟩

/-- The reference plant after a client took charge and opened the valve: three steps, with a new
setpoint after the first, bring the valve fifteen percent nearer to its command, which is fifty
percent away. -/
theorem valve_approaches_reference :
    let settings := Settings.reference
    let before : List Event := [.request (.writeSingle 3 0), .request (.writeSingle 1 100)]
    let events : List Event := [.step, .request (.writeSingle 2 215), .step, .step]
    let s := settings.startup.state.run settings.dynamics before
    let t := s.run settings.dynamics events
    settings.Valid ∧ s.controllerRunning = true ∧ s.mode = .manual ∧ s.valveGap = 50 ∧
      Thermal.travel settings.thermal settings.timing.dt = 5 ∧
        (∀ event ∈ events, event.HandsOff) ∧
      s.IntactAtSteps settings.dynamics events ∧ s.Approaches (3 * 5) t ∧ t.valveGap = 35 := by
  intro settings before events s t
  have hrunning : s.controllerRunning = true := by decide +kernel
  have hmode : s.mode = .manual := by decide +kernel
  have hgap : s.valveGap = 50 := by decide +kernel
  have htravel : Thermal.travel settings.thermal settings.timing.dt = 5 := by decide +kernel
  have hoff : ∀ event ∈ events, event.HandsOff := by decide +kernel
  have hintact : s.IntactAtSteps settings.dynamics events :=
    State.intactAtSteps_of_run (by decide +kernel)
  have hvalid : settings.Valid := by decide
  obtain ⟨-, hall⟩ := valve_approaches hvalid
  have happroach : s.Approaches (3 * Thermal.travel settings.thermal settings.timing.dt) t :=
    ((hall s ⟨before, rfl⟩ hrunning).2 hmode events hoff).1 hintact
  rw [htravel] at happroach
  refine ⟨hvalid, hrunning, hmode, hgap, htravel, hoff, hintact, happroach, ?_⟩
  have hnear := happroach.valveGap
  rw [hgap] at hnear
  omega

end Settings

end HeatingPlant
