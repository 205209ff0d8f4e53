import HeatingPlant.Operation
import HeatingPlant.Proofs.Plant.AfterBurst

/-!
# Time stops at the burst

The timer steps on after the pipes have burst.  This file shows that nobody can tell: requests and
crashes are answered as if it did not, and what it has to tell is no change of status.

## Main definitions

* `Operation.Alike` — two operations have the same plant and have answered the same

## Main statements

* `Timer.told_step_of_pipesBurst` — all that a step after the burst tells is the periodic report
* `Operation.alike_after_step` — a step after the burst is answered by nobody and changes nothing
* `Operation.Alike.after` — alike operations stay alike, whatever is asked of them
* `Operation.time_stops_at_burst` — steps after the burst may be left out

## Design notes

Requests go on changing what clients may choose, and the controller may still crash, so that the
plant of a burst is not one state.  What stays is that its pipes have burst, and that is all that
the tick and the controller look at.
-/

namespace HeatingPlant

/-- **After the burst a step tells of no change**, but still reports now and then. -/
theorem Timer.told_step_of_pipesBurst {s : State} (h : s.pipesBurst = true) (timer : Timer) :
    (timer.step s).2.2 = if timer.reportDue (timer.steps + 1) then [.statusLine s] else [] := by
  have hstep : s.step timer.dynamics = (s, none) := by
    unfold State.step
    rw [State.tick_of_pipesBurst h]
    dsimp only
    rw [State.control_of_pipesBurst h]
  unfold step
  rw [hstep]
  rfl

namespace Operation

variable {operation other third : Operation}

/-- Two operations have the same plant and have answered the same; their timers may differ. -/
structure Alike (operation other : Operation) : Prop where
  plant : operation.plant = other.plant
  answers : operation.answers = other.answers

namespace Alike

theorem refl (operation : Operation) : operation.Alike operation := ⟨rfl, rfl⟩

theorem trans (h : operation.Alike other) (h' : other.Alike third) : operation.Alike third :=
  ⟨h.plant.trans h'.plant, h.answers.trans h'.answers⟩

/-- **Alike operations stay alike**: neither a request nor a crash looks at the timer. -/
theorem after (h : operation.Alike other) {occurrence : Occurrence} (hne : occurrence ≠ .step) :
    (operation.after occurrence).Alike (other.after occurrence) := by
  obtain ⟨hplant, hanswers⟩ := h
  unfold Operation.after
  cases occurrence with
  | step => exact absurd rfl hne
  | request request => exact ⟨by rw [hplant], by rw [hplant, hanswers]⟩
  | crash reason => exact ⟨by rw [hplant], by rw [hplant, hanswers]⟩

end Alike

/-- **A step after the burst leaves the operation as it was**, but for its timer. -/
theorem alike_after_step (h : operation.plant.pipesBurst = true) :
    (operation.after .step).Alike operation where
  plant := by rw [plant_after, Occurrence.event, State.after_step_of_pipesBurst h]
  answers := rfl

theorem pipesBurst_run (h : operation.plant.pipesBurst = true) (occurrences : List Occurrence) :
    (operation.run occurrences).plant.pipesBurst = true := by
  rw [plant_run]
  exact State.pipesBurst_run h _

/-- **Alike operations after the burst stay alike if one of them leaves out the steps.** -/
theorem Alike.run_filter (h : operation.Alike other) (hburst : operation.plant.pipesBurst = true)
    (occurrences : List Occurrence) :
    (operation.run occurrences).Alike (other.run (occurrences.filter (· ≠ .step))) := by
  induction occurrences generalizing operation other with
  | nil => exact h
  | cons occurrence rest ih =>
      have hlater : (operation.after occurrence).plant.pipesBurst = true :=
        pipesBurst_run hburst [occurrence]
      rw [run_cons]
      by_cases hstep : occurrence = .step
      · rw [List.filter_cons_of_neg (by simpa using hstep)]
        subst hstep
        exact ih ((alike_after_step hburst).trans h) hlater
      · rw [List.filter_cons_of_pos (by simpa using hstep), run_cons]
        exact ih (h.after hstep) hlater

/-- **Time stops at the burst.**  Requests and crashes after it, with any number of steps among
them, are answered and leave the plant as they do without the steps, and none of the steps tells
of a change of status. -/
theorem time_stops_at_burst (h : operation.plant.pipesBurst = true)
    (occurrences : List Occurrence) :
    let among := operation.run occurrences
    let alone := operation.run (occurrences.filter (· ≠ .step))
    among.answers = alone.answers ∧ among.plant = alone.plant ∧
      ∀ before later, occurrences = before ++ .step :: later →
        ∀ notice ∈ ((operation.run before).timer.step (operation.run before).plant).2.2,
          notice.isStatusChange = false := by
  intro among alone
  have halike : among.Alike alone := (Alike.refl operation).run_filter h occurrences
  refine ⟨halike.answers, halike.plant, ?_⟩
  rintro before later - notice hnotice
  rw [Timer.told_step_of_pipesBurst (pipesBurst_run h before)] at hnotice
  split at hnotice
  · rw [List.mem_singleton] at hnotice
    subst hnotice
    rfl
  · cases hnotice

/-- The reference plant in a frozen building, after the step that bursts its pipes: a client takes
charge, the backend fails, and the client reads all registers, with and without steps in between. -/
theorem time_stops_at_burst_frozenStart :
    let operation := (start .frozenStart).run [.step]
    let write : Occurrence := .request ⟨1, 1, .writeMultiple 1 [77, 215, 0], 19⟩
    let crash : Occurrence :=
      .crash "protocol backend failure: MBAP length 601 exceeds maximum ADU (254)"
    let read : Occurrence := .request ⟨2, 1, .read 3 0 10, 12⟩
    Settings.frozenStart.Valid ∧ operation.plant.pipesBurst = true ∧
      (operation.run [.step, write, .step, .step, crash, .step, read]).answers =
        (operation.run [write, crash, read]).answers ∧
      (operation.run [.step, write, .step, .step, crash, .step, read]).plant =
        (operation.run [write, crash, read]).plant := by
  intro operation write crash read
  have hburst : operation.plant.pipesBurst = true := by decide +kernel
  obtain ⟨hanswers, hplant, -⟩ :=
    time_stops_at_burst hburst [.step, write, .step, .step, crash, .step, read]
  exact ⟨by decide +kernel, hburst, hanswers, hplant⟩

end Operation

end HeatingPlant
