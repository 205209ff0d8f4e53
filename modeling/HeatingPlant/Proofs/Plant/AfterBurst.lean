import HeatingPlant.Proofs.Plant.Burst
import HeatingPlant.Proofs.Registers.Writes

/-!
# The registers of a burst plant

Time stands still in a plant whose pipes have burst, but clients go on writing and the controller
can still crash.  This file says which registers are frozen, and exactly which events move the
others.

## Main definitions

* `Settings.BurstsInto` — the plant right after the tick on which its pipes burst
* `State.DisturbedBy` — an event moves a register of a burst plant

## Main statements

* `State.after_step_of_pipesBurst` — a step does nothing to a burst plant
* `State.registers_after_eq_iff` — what one event does to its registers
* `Settings.registers_after_burst` — burst pipes stay burst and the read-only registers stay as
  the burst left them; all ten do so exactly as long as no event disturbs the plant
* `Settings.registers_move_after_burst` — a write and a crash that do

## Design notes

The tick and the controller look at the burst pipes.  A write and a crash do not, so that the three
writable registers show them.
-/

namespace HeatingPlant

namespace State

variable {dynamics : Dynamics} {parameters : ThermalParameters} {dt : Float} {s : State}

/-! ### Events on a burst plant -/

/-- **A step does nothing to a burst plant.** -/
theorem after_step_of_pipesBurst (h : s.pipesBurst = true) : s.after dynamics .step = s := by
  show (s.step dynamics).1 = s
  rw [step_fst, tick_of_pipesBurst h, control_of_pipesBurst h]

/-- A crash shows in no register but that of the valve command. -/
theorem publish_crash_of_ne {register : Register} (h : register ≠ .valveCommand) :
    s.crash.1.publish register = s.publish register := by
  rw [crash_fst_eq]
  cases register <;> first | rfl | exact absurd rfl h

/-- There it shows if the controller ran and asked for an open valve. -/
theorem publish_crash_valveCommand_eq_iff :
    s.crash.1.publish .valveCommand = s.publish .valveCommand ↔
      ¬(s.controllerRunning = true ∧ s.valveCommand ≠ 0) := by
  show s.crash.1.valveCommand.toUInt16 = s.valveCommand.toUInt16 ↔ _
  rw [UInt8.toUInt16_inj, crash]
  cases s.controllerRunning
  · simp
  · simp [eq_comm]

/-- The event moves a register of a plant whose pipes have burst: it crashes a controller that asks
for an open valve, or it is a request with a word that, taken on its own, moves its register. -/
def DisturbedBy (s : State) : Event → Prop
  | .step => False
  | .crash => s.controllerRunning = true ∧ s.valveCommand ≠ 0
  | .request action => ∃ start words register word, action.written = some (start, words) ∧
      writtenAt start words register = some word ∧
      (s.write register word).publish register ≠ s.publish register

/-- **An event leaves all registers of a burst plant exactly if it does not disturb it.** -/
theorem registers_after_eq_iff (h : s.pipesBurst = true) (event : Event) :
    (s.after dynamics event).registers = s.registers ↔ ¬s.DisturbedBy event := by
  cases event with
  | step =>
      rw [after_step_of_pipesBurst h]
      exact iff_of_true rfl not_false
  | request action =>
      show (serve s action).1.registers = s.registers ↔ _
      unfold serve DisturbedBy
      cases hwritten : action.written with
      | none => simp [hwritten]
      | some block =>
          obtain ⟨start, words⟩ := block
          dsimp only
          rw [registers_writeBlock_eq_iff]
          constructor
          · rintro hkept ⟨_, _, register, word, hblock, hword, hmoved⟩
            obtain ⟨rfl, rfl⟩ := Prod.mk.inj (Option.some.inj (hwritten.symm.trans hblock))
            exact hmoved (hkept register word hword)
          · intro hquiet register word hword
            by_contra hmoved
            exact hquiet ⟨start, words, register, word, hwritten, hword, hmoved⟩
  | crash =>
      show s.crash.1.registers = s.registers ↔ _
      rw [registers_eq_iff, DisturbedBy, ← publish_crash_valveCommand_eq_iff]
      constructor
      · intro hkept
        exact hkept .valveCommand
      · intro hkept register
        by_cases hregister : register = .valveCommand
        · rw [hregister]
          exact hkept
        · exact publish_crash_of_ne hregister

/-! ### Histories of a burst plant -/

/-- What clients cannot write, no event moves. -/
theorem publish_after_of_not_writable (h : s.pipesBurst = true) {register : Register}
    (hregister : register ∉ Register.writable) (event : Event) :
    (s.after dynamics event).publish register = s.publish register := by
  cases event with
  | step => rw [after_step_of_pipesBurst h]
  | request action =>
      show (serve s action).1.publish register = _
      rw [(writtenFrom_serve s action).eq_with]
      cases register <;> first | rfl | exact absurd (by decide) hregister
  | crash =>
      refine publish_crash_of_ne ?_
      rintro rfl
      exact hregister (by decide)

theorem publish_run_of_not_writable (h : s.pipesBurst = true) {register : Register}
    (hregister : register ∉ Register.writable) (events : List Event) :
    (s.run dynamics events).publish register = s.publish register := by
  refine (run_induction (P := fun t => t.pipesBurst = true ∧
    t.publish register = s.publish register) ?_ ⟨h, rfl⟩ events).2
  rintro t event ⟨hburst, hkept⟩
  exact ⟨pipesBurst_after hburst event,
    (publish_after_of_not_writable hburst hregister event).trans hkept⟩

/-- **All registers of a burst plant are frozen exactly as long as nothing disturbs it.** -/
theorem registers_run_eq_iff (h : s.pipesBurst = true) (events : List Event) :
    (∀ moment, moment <+: events → (s.run dynamics moment).registers = s.registers) ↔
      ∀ before event later, events = before ++ event :: later →
        ¬(s.run dynamics before).DisturbedBy event := by
  constructor
  · rintro hfrozen before event later rfl
    have hbefore := hfrozen before (List.prefix_append _ _)
    have hafter := hfrozen (before ++ [event]) ⟨later, by simp⟩
    rw [run_append, run_cons, run_nil, ← hbefore] at hafter
    exact (registers_after_eq_iff (pipesBurst_run h before) event).mp hafter
  · intro hquiet moment hmoment
    -- along the history each event is a quiet one
    induction moment using List.reverseRecOn with
    | nil => rfl
    | append_singleton before event ih =>
        obtain ⟨later, rfl⟩ := hmoment
        have hevent := hquiet before event later (by simp)
        rw [run_append, run_cons, run_nil,
          (registers_after_eq_iff (pipesBurst_run h before) event).mpr hevent]
        exact ih ⟨event :: later, by simp⟩

end State

namespace Settings

variable {settings : Settings} {s t : State}

/-- A plant with these settings comes to `t` by the tick on which its pipes burst. -/
def BurstsInto (settings : Settings) (t : State) : Prop :=
  t.pipesBurst = true ∧ ∃ s, settings.Reaches s ∧ s.pipesBurst = false ∧
    (s.tick settings.thermal settings.timing.dt).1 = t

/-- Burst pipes have burst on some tick. -/
theorem exists_burstsInto (h : settings.Reaches s) (hpipes : s.pipesBurst = true) :
    ∃ t, settings.BurstsInto t ∧ ∃ earlier, t.run settings.dynamics earlier = s := by
  obtain ⟨events, rfl⟩ := h
  have hstart : ¬settings.startup.state.pipesBurst = true := Bool.noConfusion
  obtain ⟨before, event, later, rfl, hintact, hburst⟩ := State.exists_event
    (P := fun s => s.pipesBurst = true) hstart hpipes
  have hintact' := eq_false_of_ne_true hintact
  rw [State.run_append, State.run_cons]
  cases event with
  | step =>
      change (State.step settings.dynamics _).1.pipesBurst = true at hburst
      rw [State.step_fst, State.pipesBurst_control] at hburst
      refine ⟨_, ⟨hburst, _, ⟨before, rfl⟩, hintact', rfl⟩, later, ?_⟩
      -- the controller keeps still once the pipes have burst
      show _ = State.run _ (State.step settings.dynamics _).1 later
      rw [State.step_fst, State.control_of_pipesBurst hburst]
  | request action =>
      change (serve _ action).1.pipesBurst = true at hburst
      rw [(State.writtenFrom_serve _ action).pipesBurst] at hburst
      exact absurd hburst hintact
  | crash =>
      change (State.crash _).1.pipesBurst = true at hburst
      rw [State.pipesBurst_crash] at hburst
      exact absurd hburst hintact

/-- **Burst pipes stay burst, and the registers that clients cannot write stay as the burst left
them.**  All ten registers do so exactly as long as no event disturbs the plant. -/
theorem registers_after_burst (h : settings.Reaches s) (hpipes : s.pipesBurst = true) :
    (∃ t, settings.BurstsInto t ∧ ∃ earlier, t.run settings.dynamics earlier = s) ∧
    ∀ t, settings.BurstsInto t → ∀ earlier, t.run settings.dynamics earlier = s →
      ∀ later : List Event,
        (s.run settings.dynamics later).pipesBurst = true ∧
        (∀ register, register ∉ Register.writable →
          (s.run settings.dynamics later).publish register = t.publish register) ∧
        ((∀ moment, moment <+: earlier ++ later →
            (t.run settings.dynamics moment).registers = t.registers) ↔
          ∀ before event rest, earlier ++ later = before ++ event :: rest →
            ¬(t.run settings.dynamics before).DisturbedBy event) := by
  refine ⟨exists_burstsInto h hpipes, ?_⟩
  rintro t ⟨hburst, -⟩ earlier rfl later
  refine ⟨State.pipesBurst_run hpipes later, fun register hregister => ?_,
    State.registers_run_eq_iff hburst (earlier ++ later)⟩
  rw [← State.run_append]
  exact State.publish_run_of_not_writable hburst hregister _

/-- The reference plant, started in a frozen building. -/
def frozenStart : Settings :=
  { reference with startup := { InitialConditions.reference with insideTemperature := -30 } }

/-- Its pipes burst on the first tick, and a write, a crash and a step later the outside temperature
register reads as that tick left it. -/
theorem registers_after_burst_frozenStart :
    frozenStart.Valid ∧ ∃ s, frozenStart.Reaches s ∧ s.pipesBurst = true ∧
      ∃ t, frozenStart.BurstsInto t ∧
        (s.run frozenStart.dynamics [.request (.writeMultiple 0 [7, 100]), .crash, .step]).publish
          .outsideTemperature = t.publish .outsideTemperature := by
  have hreached : frozenStart.Reaches
      (frozenStart.startup.state.run frozenStart.dynamics [.step]) := ⟨_, rfl⟩
  have hburst : (frozenStart.startup.state.run frozenStart.dynamics [.step]).pipesBurst = true := by
    decide +kernel
  obtain ⟨⟨t, ht, earlier, hrun⟩, hafter⟩ := registers_after_burst hreached hburst
  have hlater := (hafter t ht earlier hrun
    [.request (.writeMultiple 0 [7, 100]), .crash, .step]).2.1 .outsideTemperature (by decide)
  exact ⟨by decide +kernel, _, hreached, hburst, t, ht, hlater⟩

/-- **A write after the burst moves a register, and so does a crash.** -/
theorem registers_move_after_burst :
    frozenStart.Valid ∧ ∃ t, frozenStart.BurstsInto t ∧
      (t.after frozenStart.dynamics (.request (.writeSingle 1 77))).registers ≠ t.registers ∧
      (t.after frozenStart.dynamics .crash).registers ≠ t.registers :=
  ⟨by decide +kernel,
    (frozenStart.startup.state.tick frozenStart.thermal frozenStart.timing.dt).1,
    ⟨by decide +kernel, _, reaches_startup _, rfl, rfl⟩, by decide +kernel, by decide +kernel⟩

end Settings

end HeatingPlant
