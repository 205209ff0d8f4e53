import HeatingPlant.History
import HeatingPlant.Modbus.Reply

/-!
# The plant in operation

The plant and its timer, with everything that is answered and told while steps, requests and crashes
follow each other.

## Main definitions

* `Occurrence` — a step of the timer, a framed request, or a crash with its reason
* `Answer` — what comes back to whoever brought an occurrence about
* `Operation` — the timer and the plant, with the answers and the notices so far
* `Operation.after`, `Operation.run` — the operation after one occurrence, and after many

## Design notes

An `Event` is what an occurrence does to the plant.  An occurrence has in addition what only shows
outside of it: the identifiers that a reply echoes, the reason that a crash is told with, and the
timer with its own count of steps.
-/

namespace HeatingPlant

/-- What can occur while the plant is in operation. -/
inductive Occurrence where
  /-- A step of the timer. -/
  | step
  /-- A client's request, as it was framed. -/
  | request (request : Modbus.Request)
  /-- A crash of the controller, with its reason. -/
  | crash (reason : String)
  deriving DecidableEq, Repr

namespace Occurrence

/-- What an occurrence is to the plant. -/
def event : Occurrence → Event
  | step => .step
  | request framed => .request framed.action
  | crash _ => .crash

/-- Whether an occurrence is a crash. -/
def isCrash : Occurrence → Bool
  | crash _ => true
  | _ => false

@[simp] theorem event_eq_step_iff {occurrence : Occurrence} :
    occurrence.event = .step ↔ occurrence = step := by
  cases occurrence <;> simp [event]

@[simp] theorem event_eq_crash_iff {occurrence : Occurrence} :
    occurrence.event = .crash ↔ occurrence.isCrash = true := by
  cases occurrence <;> simp [event, isCrash]

end Occurrence

/-- What comes back to whoever brought an occurrence about. -/
inductive Answer where
  /-- The frame of a reply. -/
  | reply (frame : List UInt8)
  /-- Whether it was this crash that took the controller down. -/
  | crashed (now : Bool)
  deriving DecidableEq, Repr

/-- The plant and its timer, with what was answered and told so far. -/
structure Operation where
  /-- The timer. -/
  timer : Timer
  /-- The plant. -/
  plant : State
  /-- What was answered, in order. -/
  answers : List Answer
  /-- What the timer and the crashes had to tell, in order. -/
  told : List Notice

namespace Operation

/-- The operation at startup. -/
def start (settings : Settings) : Operation where
  timer := settings.timer
  plant := settings.startup.state
  answers := []
  told := []

/-- The operation after an occurrence. -/
def after (operation : Operation) : Occurrence → Operation
  | .step =>
    let (timer, plant, notices) := operation.timer.step operation.plant
    { operation with timer := timer, plant := plant, told := operation.told ++ notices }
  | .request request =>
    let (plant, registers) := serve operation.plant request.action
    { operation with
      plant := plant
      answers := operation.answers ++ [.reply (request.reply registers)] }
  | .crash reason =>
    let (plant, now, notices) := operation.plant.reportCrash reason
    { operation with
      plant := plant
      answers := operation.answers ++ [.crashed now]
      told := operation.told ++ notices }

/-- The operation after a list of occurrences. -/
def run (operation : Operation) (occurrences : List Occurrence) : Operation :=
  occurrences.foldl after operation

@[simp] theorem run_nil (operation : Operation) : operation.run [] = operation := rfl

@[simp] theorem run_cons (operation : Operation) (occurrence : Occurrence)
    (rest : List Occurrence) :
    operation.run (occurrence :: rest) = (operation.after occurrence).run rest := rfl

theorem run_append (operation : Operation) (first second : List Occurrence) :
    operation.run (first ++ second) = (operation.run first).run second :=
  List.foldl_append

/-- The timer keeps the dynamics that it was given. -/
@[simp] theorem dynamics_after (operation : Operation) (occurrence : Occurrence) :
    (operation.after occurrence).timer.dynamics = operation.timer.dynamics := by
  cases occurrence <;> rfl

/-- Nothing but a step concerns the timer. -/
theorem timer_after {operation : Operation} {occurrence : Occurrence} (h : occurrence ≠ .step) :
    (operation.after occurrence).timer = operation.timer := by
  cases occurrence with
  | step => exact absurd rfl h
  | request request => rfl
  | crash reason => rfl

/-- **To the plant an occurrence is its event.** -/
theorem plant_after (operation : Operation) (occurrence : Occurrence) :
    (operation.after occurrence).plant =
      operation.plant.after operation.timer.dynamics occurrence.event := by
  cases occurrence <;> rfl

/-- **To the plant a list of occurrences is a history.** -/
theorem plant_run (operation : Operation) (occurrences : List Occurrence) :
    (operation.run occurrences).plant =
      operation.plant.run operation.timer.dynamics (occurrences.map Occurrence.event) := by
  induction occurrences generalizing operation with
  | nil => rfl
  | cons occurrence rest ih =>
      rw [run_cons, ih, dynamics_after, plant_after, List.map_cons, State.run_cons]

end Operation

end HeatingPlant
