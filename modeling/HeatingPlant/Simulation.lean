import HeatingPlant.Plant.Dynamics
import HeatingPlant.Journal.Notice

/-!
# The simulation timer

The timer steps the plant at a fixed cadence, tells of changes of status, and reports now and then.

## Main definitions

* `Timer` — the dynamics, the reporting period and the number of steps so far
* `Timer.step` — one step, with its notices
* `meanDuration` — average of measured step durations

## Design notes

The report counts steps, not ticks of the plant: it goes on after the pipes have burst.  The timer's
own clock is not part of the plant.
-/

namespace HeatingPlant

/-- The timer that drives the plant. -/
structure Timer where
  /-- How the plant moves. -/
  dynamics : Dynamics
  /-- Steps between two reports; zero for none. -/
  reportEvery : Nat
  /-- Steps so far. -/
  steps : Nat := 0
  deriving DecidableEq, Repr

/-- The notice of a change of status; a burst is told in its own words. -/
def changeNotice (s : State) (change : StatusChange) : Notice :=
  if change.after = .burst then .pipesBurst s.insideTemperature s.ticksWithoutControl
  else .statusChanged change s.insideTemperature

namespace Timer

/-- Whether a report is due after the given number of steps. -/
def reportDue (timer : Timer) (steps : Nat) : Bool :=
  0 < timer.reportEvery && steps % timer.reportEvery = 0

/-- One step of the plant: the timer, the state and the notices after it. -/
def step (timer : Timer) (s : State) : Timer × State × List Notice :=
  let (next, change) := s.step timer.dynamics
  let steps := timer.steps + 1
  ({ timer with steps := steps }, next,
    (change.map (changeNotice next)).toList ++
      if timer.reportDue steps then [.statusLine next] else [])

@[simp] theorem steps_step (timer : Timer) (s : State) :
    (timer.step s).1.steps = timer.steps + 1 := rfl

end Timer

/-- The average of `count` durations with the given sum, rounded down; zero if there are none. -/
def meanDuration (count total : Nat) : Nat := if count = 0 then 0 else total / count

end HeatingPlant
