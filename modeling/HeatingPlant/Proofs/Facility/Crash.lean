import HeatingPlant.Proofs.Facility.Loop
import HeatingPlant.Proofs.Session.Turn

/-!
# The crash of the controller

However many clients there are, and in whatever order they and the timer take turns, the controller
dies exactly at the first failure of the backend that some session comes to.  It stays dead, and the
journal tells of it once.

## Main definitions

* `Facility.FailsBackend` — the next move is a turn that finds the backend failed
* `Facility.ToldOnce` — the journal tells of a crash exactly if the controller is dead

## Main statements

* `Facility.controllerRunning_after`, `Facility.controllerRunning_run` — what one move and what a
  whole run does to the controller
* `Facility.ToldOnce.run` — the journal tells of a crash at most once
* `State.reportCrash_run` — a crash after the crash is none
* `Facility.crash_exact` — all of this together

## Design notes

A move is either a failure of the backend, and then it amounts to a crash, or it keeps the
controller as it is and tells of no crash.  Everything else is an induction over the moves.
-/

namespace HeatingPlant

/-! ### No second crash -/

namespace State

variable {s : State} {dynamics : Dynamics}

theorem controllerRunning_after (h : s.controllerRunning = false) (event : Event) :
    (s.after dynamics event).controllerRunning = false := by
  cases event with
  | step =>
      show (s.step dynamics).1.controllerRunning = false
      rw [step_fst, controllerRunning_control, controllerRunning_tick]
      exact h
  | request action => exact (writtenFrom_serve s action).controllerRunning.trans h
  | crash => exact controllerRunning_crash s

/-- **A dead controller stays dead.** -/
theorem controllerRunning_run (h : s.controllerRunning = false) (events : List Event) :
    (s.run dynamics events).controllerRunning = false :=
  run_induction (P := fun s => s.controllerRunning = false)
    (fun _ event hs => controllerRunning_after hs event) h events

theorem reportCrash_of_not_running (reason : String) (h : s.controllerRunning = false) :
    s.reportCrash reason = (s, false, []) := by
  unfold reportCrash
  rw [crash_of_not_running h]
  rfl

/-- **A crash after the crash changes nothing and tells nothing**, whatever came in between. -/
theorem reportCrash_run (reason : String) (h : s.controllerRunning = false) (events : List Event) :
    (s.run dynamics events).reportCrash reason = (s.run dynamics events, false, []) :=
  reportCrash_of_not_running reason (controllerRunning_run h events)

end State

/-- A step of the timer tells of no crash. -/
theorem Timer.countP_tellsCrash_step (timer : Timer) (s : State) :
    (timer.step s).2.2.countP Notice.tellsCrash = 0 := by
  have hchange : ∀ change,
      (changeNotice (s.step timer.dynamics).1 change).tellsCrash = false := by
    intro change
    unfold changeNotice
    split <;> rfl
  have hreport : ∀ next, (Notice.statusLine next).tellsCrash = false := fun _ => rfl
  unfold step
  dsimp only
  rw [List.countP_append]
  cases (s.step timer.dynamics).2 with
  | none => split <;> rfl
  | some change => split <;> simp [hchange, hreport]

namespace Facility

variable {facility : Facility} {settings : Settings}

/-! ### One move -/

/-- The next move is a turn that finds the backend failed. -/
def FailsBackend (facility : Facility) : Move → Prop
  | .step => False
  | .turn place => ∃ session, facility.session? place = some session ∧ session.FailsBackend

/-- Number of times that the journal tells of a crash. -/
def crashesTold (facility : Facility) : Nat := facility.journal.countP Notice.tellsCrash

theorem failsBackend_turn_iff {place : Nat} {session : Session}
    (h : facility.session? place = some session) :
    facility.FailsBackend (.turn place) ↔ session.FailsBackend := by
  simp [FailsBackend, h]

/-- A failure of the backend amounts to a crash of the controller. -/
theorem after_of_failsBackend {move : Move} (h : facility.FailsBackend move) :
    (facility.after move).plant = facility.plant.crash.1 ∧
      (facility.after move).crashesTold =
        facility.crashesTold + if facility.plant.controllerRunning then 1 else 0 := by
  cases move with
  | step => cases h
  | turn place =>
      obtain ⟨session, hsession, hfails⟩ := h
      obtain ⟨hplant, hcount⟩ := Session.turn_of_failsBackend facility.plant hfails
      unfold after turn crashesTold
      simp only [hsession, List.countP_append, hcount]
      exact ⟨hplant, trivial⟩

/-- Any other move keeps the controller as it is and tells of no crash. -/
theorem after_of_not_failsBackend {move : Move} (h : ¬facility.FailsBackend move) :
    (facility.after move).plant.controllerRunning = facility.plant.controllerRunning ∧
      (facility.after move).crashesTold = facility.crashesTold := by
  cases move with
  | step =>
      have hcount := facility.timer.countP_tellsCrash_step facility.plant
      refine ⟨?_, ?_⟩
      · show (facility.plant.step facility.timer.dynamics).1.controllerRunning = _
        rw [State.step_fst, State.controllerRunning_control, State.controllerRunning_tick]
      · show List.countP _ (facility.journal ++ (facility.timer.step facility.plant).2.2) = _
        rw [List.countP_append, hcount]
        rfl
  | turn place =>
      cases hsession : facility.session? place with
      | none =>
          rw [after_turn_of_none hsession]
          exact ⟨rfl, rfl⟩
      | some session =>
          rw [failsBackend_turn_iff hsession] at h
          obtain ⟨hwritten, hcount⟩ := Session.turn_of_not_failsBackend facility.plant h
          unfold after turn crashesTold
          simp only [hsession, List.countP_append, hcount]
          exact ⟨hwritten.controllerRunning, rfl⟩

/-- **After a move the controller is dead exactly if it was before or the backend failed.** -/
theorem controllerRunning_after (facility : Facility) (move : Move) :
    (facility.after move).plant.controllerRunning = false ↔
      facility.plant.controllerRunning = false ∨ facility.FailsBackend move := by
  by_cases h : facility.FailsBackend move
  · rw [(after_of_failsBackend h).1]
    simp [h]
  · rw [(after_of_not_failsBackend h).1]
    simp [h]

/-! ### Whole runs -/

/-- **After a run it is dead exactly if it was before or the backend failed on the way.** -/
theorem controllerRunning_run (facility : Facility) (moves : List Move) :
    (facility.run moves).plant.controllerRunning = false ↔
      facility.plant.controllerRunning = false ∨
        ∃ before move later, moves = before ++ move :: later ∧
          (facility.run before).FailsBackend move := by
  induction moves generalizing facility with
  | nil => simp
  | cons first rest ih =>
      -- the first move is the one in question, or one of the later ones is
      rw [run_cons, ih, controllerRunning_after, or_assoc]
      refine or_congr_right ?_
      constructor
      · rintro (hfirst | ⟨before, move, later, rfl, hfails⟩)
        · exact ⟨[], first, rest, rfl, hfirst⟩
        · exact ⟨first :: before, move, later, rfl, hfails⟩
      · rintro ⟨before, move, later, hsplit, hfails⟩
        cases before with
        | nil =>
            cases hsplit
            exact Or.inl hfails
        | cons _ before =>
            cases hsplit
            exact Or.inr ⟨before, move, later, rfl, hfails⟩

/-- The journal tells of a crash exactly if the controller is dead, and then once. -/
def ToldOnce (facility : Facility) : Prop :=
  facility.crashesTold = if facility.plant.controllerRunning then 0 else 1

theorem ToldOnce.after (h : facility.ToldOnce) (move : Move) : (facility.after move).ToldOnce := by
  unfold ToldOnce at h ⊢
  by_cases hfails : facility.FailsBackend move
  · -- a crash is told by the one move that brings it about
    obtain ⟨hplant, hcount⟩ := after_of_failsBackend hfails
    rw [hcount, hplant, h, State.controllerRunning_crash]
    cases facility.plant.controllerRunning <;> rfl
  · obtain ⟨hrunning, hcount⟩ := after_of_not_failsBackend hfails
    rw [hcount, hrunning, h]

theorem ToldOnce.run (h : facility.ToldOnce) (moves : List Move) :
    (facility.run moves).ToldOnce := by
  induction moves generalizing facility with
  | nil => exact h
  | cons move rest ih => exact ih (h.after move)

theorem toldOnce_start (settings : Settings) (sessions : List Session) :
    (start settings sessions).ToldOnce := rfl

/-- **The controller dies exactly at the first failure of the backend, for good, and the journal
tells of it once.** -/
theorem crash_exact (settings : Settings) (sessions : List Session) (moves : List Move) :
    let last := (start settings sessions).run moves
    -- it is dead exactly if some session's reading failed the backend on the way
    (last.plant.controllerRunning = false ↔
      ∃ before place later, moves = before ++ .turn place :: later ∧
        ∃ session, ((start settings sessions).run before).session? place = some session ∧
          session.FailsBackend) ∧
    -- one more move kills it exactly if that is such a turn
    (∀ move, last.plant.controllerRunning = true →
      ((last.after move).plant.controllerRunning = false ↔
        ∃ place session, move = .turn place ∧ last.session? place = some session ∧
          session.FailsBackend)) ∧
    -- such a turn is one that comes to an oversized header
    (∀ session : Session, session.FailsBackend ↔ session.MeetsOversizedHeader) ∧
    -- the service starts running, and once degraded stays so
    (start settings sessions).plant.serverMode = .running ∧
    (last.plant.serverMode = .degraded →
      ∀ more, (last.run more).plant.serverMode = .degraded) ∧
    -- the journal tells of the crash once, or of none
    last.journal.countP Notice.tellsCrash = (if last.plant.controllerRunning then 0 else 1) ∧
    -- a crash after the crash is none
    (last.plant.controllerRunning = false → ∀ (events : List Event) (reason : String),
      (last.plant.run settings.dynamics events).reportCrash reason =
        (last.plant.run settings.dynamics events, false, [])) := by
  intro last
  have hmode : ∀ s : State, s.serverMode = .degraded ↔ s.controllerRunning = false := by
    intro s
    unfold State.serverMode
    cases s.controllerRunning <;> simp
  refine ⟨?_, ?_, fun _ => Session.failsBackend_iff, rfl, ?_, ?_, ?_⟩
  · rw [controllerRunning_run]
    constructor
    · rintro (hstart | ⟨before, move, later, hsplit, hfails⟩)
      · cases hstart
      · cases move with
        | step => cases hfails
        | turn place => exact ⟨before, place, later, hsplit, hfails⟩
    · rintro ⟨before, place, later, hsplit, hfails⟩
      exact Or.inr ⟨before, .turn place, later, hsplit, hfails⟩
  · intro move hrunning
    rw [controllerRunning_after, hrunning]
    cases move with
    | step => simp [FailsBackend]
    | turn place => simp [FailsBackend]
  · intro hdegraded more
    rw [hmode] at hdegraded ⊢
    exact (controllerRunning_run last more).mpr (Or.inl hdegraded)
  · exact (toldOnce_start settings sessions).run moves
  · intro hdead events reason
    exact State.reportCrash_run reason hdead events

end Facility

end HeatingPlant
