import HeatingPlant.Operation
import HeatingPlant.Proofs.Plant.AfterBurst
import HeatingPlant.Proofs.Plant.CommandAfterCrash

/-!
# Counting ticks

Four numbers count steps, each in its own way: the runtime wraps around, the register that shows
it keeps its low half, the ticks without control stop at their largest value, and the timer counts
steps that the plant no longer takes part in.  This file says what each of them counts.

## Main definitions

* `stepsBegun` — the steps among some occurrences that begin under a condition
* `State.Counts` — the clocks of a plant show these many ticks, and these many without control
* `Operation.Clocks`, `Operation.clocks` — the four numbers

## Main statements

* `State.Counts.step`, `State.Counts.of_ne_step` — what a step adds, and that nothing else adds
* `Operation.counts_run` — the clocks of a run
* `Operation.ticks_counted` — what the four numbers are after a run, and that no request and no
  crash changes any of them

## Design notes

A crash sets the ticks without control to zero.  It finds them at zero, as they stand still while
the controller runs, so that nothing is ever lost.
-/

namespace HeatingPlant

/-- The number of steps among some occurrences that begin under a condition on the occurrences
before them. -/
def stepsBegun (condition : List Occurrence → Bool) (occurrences : List Occurrence) : Nat :=
  (List.range occurrences.length).countP fun place =>
    occurrences[place]? = some .step && condition (occurrences.take place)

/-- One more occurrence is counted if it is a step and begins under the condition. -/
theorem stepsBegun_append_singleton (condition : List Occurrence → Bool)
    (occurrences : List Occurrence) (occurrence : Occurrence) :
    stepsBegun condition (occurrences ++ [occurrence]) =
      stepsBegun condition occurrences +
        if occurrence = .step ∧ condition occurrences = true then 1 else 0 := by
  have hearlier : ∀ place ∈ List.range occurrences.length,
      ((occurrences ++ [occurrence])[place]? = some .step &&
          condition ((occurrences ++ [occurrence]).take place)) =
        (occurrences[place]? = some .step && condition (occurrences.take place)) := by
    intro place hplace
    have hlt := List.mem_range.mp hplace
    rw [List.getElem?_append_left hlt, List.take_append_of_le_length (Nat.le_of_lt hlt)]
  rw [stepsBegun, List.length_append, List.length_singleton, List.range_succ, List.countP_append,
    List.countP_singleton, stepsBegun]
  congr 1
  · exact List.countP_congr fun place hplace => by rw [hearlier place hplace]
  · simp

namespace State

variable {s t : State} {ticks dead : Nat}

/-- A step of an intact plant moves the clocks on. -/
theorem clocks_step (h : s.pipesBurst = false) (dynamics : Dynamics) :
    (s.after dynamics .step).runtime = s.advanceClocks.runtime ∧
      (s.after dynamics .step).ticksWithoutControl = s.advanceClocks.ticksWithoutControl := by
  show (s.step dynamics).1.runtime = _ ∧ (s.step dynamics).1.ticksWithoutControl = _
  rw [step_fst, control_eq, tick_of_intact h, reclassify_eq]
  exact ⟨rfl, rfl⟩

/-- The clocks of a plant show `ticks` ticks, of them `dead` without control. -/
structure Counts (s : State) (ticks dead : Nat) : Prop where
  /-- The runtime wraps around. -/
  runtime : s.runtime.toNat = ticks % 2 ^ 32
  /-- The ticks without control stop at their largest value. -/
  ticksWithoutControl : s.ticksWithoutControl.toNat = min dead (2 ^ 32 - 1)
  /-- There are none of them as long as the controller runs. -/
  controlled : s.controllerRunning = true → dead = 0

namespace Counts

theorem ticksWithoutControl_eq_zero (h : s.Counts ticks dead)
    (hrunning : s.controllerRunning = true) :
    s.ticksWithoutControl = 0 := by
  apply UInt32.toNat_inj.mp
  rw [h.ticksWithoutControl, h.controlled hrunning]
  rfl

/-- **A step of an intact plant is counted**, and counted as one without control if it is. -/
theorem step (h : s.Counts ticks dead) (hintact : s.pipesBurst = false) (dynamics : Dynamics) :
    (s.after dynamics .step).Counts (ticks + 1)
      (dead + if s.controllerRunning then 0 else 1) := by
  obtain ⟨hruntime, hticks, hcontrolled⟩ := h
  obtain ⟨hruntime', hticks'⟩ := clocks_step hintact dynamics
  have hrunning : (s.after dynamics .step).controllerRunning = s.controllerRunning := by
    show (s.step dynamics).1.controllerRunning = _
    rw [step_fst, controllerRunning_control, controllerRunning_tick]
  refine ⟨?_, ?_, ?_⟩
  · rw [hruntime', advanceClocks]
    dsimp only
    rw [UInt32.toNat_add, hruntime]
    exact Nat.mod_add_mod ticks (2 ^ 32) 1
  · rw [hticks', advanceClocks]
    dsimp only
    cases hs : s.controllerRunning
    · rw [if_neg Bool.false_ne_true, if_neg Bool.false_ne_true]
      split
      · rename_i hlargest
        rw [hlargest] at hticks
        change 4294967295 = _ at hticks
        show 4294967295 = _
        omega
      · rename_i hsmaller
        have hne : s.ticksWithoutControl.toNat ≠ 4294967295 := fun heq =>
          hsmaller (UInt32.toNat_inj.mp heq)
        rw [UInt32.toNat_add, hticks]
        change (_ + 1) % 2 ^ 32 = _
        omega
    · rw [if_pos rfl, if_pos rfl]
      exact hticks
  · intro hlater
    rw [hrunning] at hlater
    rw [hlater, hcontrolled hlater, if_pos rfl]

/-- **Nothing but a step is counted**, and nothing takes anything away. -/
theorem of_ne_step (h : s.Counts ticks dead) {event : Event} (hne : event ≠ .step)
    (dynamics : Dynamics) : (s.after dynamics event).Counts ticks dead := by
  cases event with
  | step => exact absurd rfl hne
  | request action =>
      show (serve s action).1.Counts ticks dead
      rw [(writtenFrom_serve s action).eq_with]
      exact ⟨h.runtime, h.ticksWithoutControl, h.controlled⟩
  | crash =>
      show s.crash.1.Counts ticks dead
      cases hrunning : s.controllerRunning
      · rw [crash_of_not_running hrunning]
        exact h
      · -- what the crash resets is zero already
        rw [crash, if_pos hrunning]
        refine ⟨h.runtime, ?_, fun hlater => absurd hlater Bool.false_ne_true⟩
        rw [h.controlled hrunning]
        rfl

/-- How many there were determines the clocks. -/
theorem clocks_eq (h : s.Counts ticks dead) (h' : t.Counts ticks dead) :
    s.runtime = t.runtime ∧ s.ticksWithoutControl = t.ticksWithoutControl :=
  ⟨UInt32.toNat_inj.mp (h.runtime.trans h'.runtime.symm),
    UInt32.toNat_inj.mp (h.ticksWithoutControl.trans h'.ticksWithoutControl.symm)⟩

end Counts

/-- The register at index eight shows the low half of the runtime. -/
theorem registers_eight (s : State) : s.registers[8] = s.runtime.toUInt16 := by
  rw [← Option.some_inj, ← Vector.getElem?_eq_getElem]
  exact registers_getElem?_index s .runtime

end State

namespace Operation

variable {operation : Operation}

/-! ### The timer -/

/-- **The timer counts every step**, whatever the plant makes of it. -/
theorem steps_run (operation : Operation) (occurrences : List Occurrence) :
    (operation.run occurrences).timer.steps =
      operation.timer.steps + occurrences.count .step := by
  induction occurrences generalizing operation with
  | nil => rfl
  | cons occurrence rest ih =>
      rw [run_cons, ih]
      by_cases hstep : occurrence = .step
      · subst hstep
        have hone : (operation.after .step).timer.steps = operation.timer.steps + 1 := rfl
        rw [hone, List.count_cons_self]
        omega
      · have hkept : (operation.after occurrence).timer = operation.timer := timer_after hstep
        rw [hkept, List.count_cons_of_ne hstep]

/-! ### The plant -/

/-- The controller is dead once a crash has occurred. -/
theorem controllerRunning_run (settings : Settings) (occurrences : List Occurrence) :
    ((start settings).run occurrences).plant.controllerRunning =
      !occurrences.any Occurrence.isCrash := by
  rw [Bool.eq_iff_iff, plant_run, State.controllerRunning_run_iff rfl, Bool.not_eq_true',
    ← Bool.not_eq_true, List.any_eq_true, List.mem_map, not_iff_not]
  simp only [Occurrence.event_eq_crash_iff]

/-- The number of steps that begin with intact pipes. -/
def intactSteps (settings : Settings) : List Occurrence → Nat :=
  stepsBegun fun earlier => !((start settings).run earlier).plant.pipesBurst

/-- The number of those that begin after the first crash. -/
def intactStepsAfterCrash (settings : Settings) : List Occurrence → Nat :=
  stepsBegun fun earlier =>
    !((start settings).run earlier).plant.pipesBurst && earlier.any Occurrence.isCrash

theorem intactSteps_append_singleton (settings : Settings) (earlier : List Occurrence)
    (occurrence : Occurrence) :
    intactSteps settings (earlier ++ [occurrence]) =
      intactSteps settings earlier + if occurrence = .step ∧
        ((start settings).run earlier).plant.pipesBurst = false then 1 else 0 := by
  rw [intactSteps, stepsBegun_append_singleton]
  simp only [Bool.not_eq_true']

theorem intactStepsAfterCrash_append_singleton (settings : Settings) (earlier : List Occurrence)
    (occurrence : Occurrence) :
    intactStepsAfterCrash settings (earlier ++ [occurrence]) =
      intactStepsAfterCrash settings earlier + if occurrence = .step ∧
        ((start settings).run earlier).plant.pipesBurst = false ∧
        ((start settings).run earlier).plant.controllerRunning = false then 1 else 0 := by
  rw [intactStepsAfterCrash, stepsBegun_append_singleton, controllerRunning_run]
  simp only [Bool.and_eq_true, Bool.not_eq_true', Bool.not_eq_false']

/-- **The clocks of the plant count the steps that begin with intact pipes.** -/
theorem counts_run (settings : Settings) (occurrences : List Occurrence) :
    ((start settings).run occurrences).plant.Counts (intactSteps settings occurrences)
      (intactStepsAfterCrash settings occurrences) := by
  induction occurrences using List.reverseRecOn with
  | nil => exact ⟨rfl, rfl, fun _ => rfl⟩
  | append_singleton earlier occurrence ih =>
      rw [intactSteps_append_singleton, intactStepsAfterCrash_append_singleton,
        run_append, run_cons, run_nil, plant_after]
      generalize (start settings).run earlier = operation at ih ⊢
      by_cases hstep : occurrence = .step
      · subst hstep
        cases hburst : operation.plant.pipesBurst
        · have hnext := ih.step hburst operation.timer.dynamics
          cases hrunning : operation.plant.controllerRunning
          · simpa [Occurrence.event, hrunning] using hnext
          · simpa [Occurrence.event, hrunning] using hnext
        · have hstill : operation.plant.after operation.timer.dynamics .step = operation.plant :=
            State.after_step_of_pipesBurst hburst
          simpa [Occurrence.event, hstill] using ih
      · have hnext := ih.of_ne_step (mt Occurrence.event_eq_step_iff.mp hstep)
          operation.timer.dynamics
        simpa [hstep] using hnext

/-! ### All four numbers -/

/-- The numbers that count steps. -/
structure Clocks where
  /-- The runtime of the plant. -/
  runtime : UInt32
  /-- What its register shows. -/
  runtimeRegister : UInt16
  /-- The ticks without control. -/
  ticksWithoutControl : UInt32
  /-- The steps that the timer has counted. -/
  steps : Nat
  deriving DecidableEq, Repr

/-- The numbers that count steps, as an operation has them. -/
def clocks (operation : Operation) : Clocks where
  runtime := operation.plant.runtime
  runtimeRegister := operation.plant.registers[8]
  ticksWithoutControl := operation.plant.ticksWithoutControl
  steps := operation.timer.steps

/-- **What the clocks count.**  The runtime is the number of steps that began with intact pipes,
modulo the size of its word, and its register shows the low half of it; the ticks without control
are those of them that began after the first crash, up to the largest value, and none as long as
the controller runs; the timer counts all steps.  No request and no crash changes any of these
numbers. -/
theorem ticks_counted (settings : Settings) (occurrences : List Occurrence) :
    let last := (start settings).run occurrences
    let n := intactSteps settings occurrences
    let k := intactStepsAfterCrash settings occurrences
    last.clocks.runtime.toNat = n % 2 ^ 32 ∧
      last.clocks.runtimeRegister.toNat = n % 2 ^ 16 ∧
      last.clocks.ticksWithoutControl.toNat = min k (2 ^ 32 - 1) ∧
      (last.plant.controllerRunning = true → last.clocks.ticksWithoutControl = 0) ∧
      last.clocks.steps = occurrences.count .step ∧
      ∀ occurrence, occurrence ≠ .step → (last.after occurrence).clocks = last.clocks := by
  intro last n k
  have hcounts : last.plant.Counts n k := counts_run settings occurrences
  have hsteps : last.timer.steps = 0 + occurrences.count .step := steps_run _ occurrences
  refine ⟨hcounts.runtime, ?_, hcounts.ticksWithoutControl, hcounts.ticksWithoutControl_eq_zero,
    hsteps.trans (Nat.zero_add _), fun occurrence hne => ?_⟩
  · show last.plant.registers[8].toNat = n % 2 ^ 16
    rw [State.registers_eight, UInt32.toNat_toUInt16, hcounts.runtime]
    exact Nat.mod_mod_of_dvd n (by decide)
  · have hlater := hcounts.of_ne_step (mt Occurrence.event_eq_step_iff.mp hne) last.timer.dynamics
    rw [← plant_after] at hlater
    obtain ⟨hruntime, hticks⟩ := hlater.clocks_eq hcounts
    rw [clocks, State.registers_eight, hruntime, hticks, timer_after hne, clocks,
      State.registers_eight]

end Operation

end HeatingPlant
