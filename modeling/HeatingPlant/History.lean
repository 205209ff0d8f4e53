import HeatingPlant.Session
import HeatingPlant.Settings.Check

/-!
# Histories of the plant

Everything that can happen to the plant, one thing after the other.

## Main definitions

* `Event` — a step of time, a client's request, a crash of the controller
* `State.after`, `State.run` — the plant after one event, and after many
* `Settings.Reaches` — the states that a plant with these settings can come to

## Design notes

The timer and any number of clients take turns on one plant, so that whatever they do between them
is one list of events.  Which client a request came from makes no difference to the plant.
-/

namespace HeatingPlant

/-- What can happen to the plant. -/
inductive Event where
  /-- A step of time. -/
  | step
  /-- A client's request, of whatever kind. -/
  | request (action : Modbus.Action)
  /-- A crash of the controller. -/
  | crash
  deriving DecidableEq, Repr

namespace State

/-- The plant after an event. -/
def after (dynamics : Dynamics) (s : State) : Event → State
  | .step => (s.step dynamics).1
  | .request action => (serve s action).1
  | .crash => s.crash.1

/-- The plant after a list of events. -/
def run (dynamics : Dynamics) (s : State) (events : List Event) : State :=
  events.foldl (·.after dynamics) s

@[simp] theorem run_nil (dynamics : Dynamics) (s : State) : s.run dynamics [] = s := rfl

@[simp] theorem run_cons (dynamics : Dynamics) (s : State) (event : Event) (rest : List Event) :
    s.run dynamics (event :: rest) = (s.after dynamics event).run dynamics rest := rfl

theorem run_append (dynamics : Dynamics) (s : State) (first second : List Event) :
    s.run dynamics (first ++ second) = (s.run dynamics first).run dynamics second :=
  List.foldl_append

/-- What one event preserves, every list of events preserves. -/
theorem run_induction {dynamics : Dynamics} {P : State → Prop}
    (hafter : ∀ s event, P s → P (s.after dynamics event)) {s : State} (h : P s)
    (events : List Event) : P (s.run dynamics events) := by
  induction events generalizing s with
  | nil => exact h
  | cons event rest ih => exact ih (hafter s event h)

end State

namespace Settings

/-- The states that a plant with these settings can come to. -/
def Reaches (settings : Settings) (s : State) : Prop :=
  ∃ events : List Event, settings.startup.state.run settings.dynamics events = s

theorem reaches_startup (settings : Settings) :
    settings.Reaches settings.startup.state := ⟨[], rfl⟩

theorem Reaches.after {settings : Settings} {s : State} (h : settings.Reaches s) (event : Event) :
    settings.Reaches (s.after settings.dynamics event) := by
  obtain ⟨events, rfl⟩ := h
  exact ⟨events ++ [event], by rw [State.run_append, State.run_cons, State.run_nil]⟩

theorem Reaches.run {settings : Settings} {s : State} (h : settings.Reaches s)
    (events : List Event) : settings.Reaches (s.run settings.dynamics events) := by
  obtain ⟨before, rfl⟩ := h
  exact ⟨before ++ events, State.run_append ..⟩

end Settings

end HeatingPlant
