import HeatingPlant.Plant.State

/-!
# The controller crash

A failing protocol backend takes the controller down: the command fails closed, the actuator keeps
its place, and the building is left to lose heat.

## Main definitions

* `State.crash` — the crash, and whether this call brought it about

## Design notes

Only a running controller can crash, so that any number of crashes amounts to one.
-/

namespace HeatingPlant

/-- The state after a crash, and whether a running controller crashed just now. -/
def State.crash (s : State) : State × Bool :=
  if s.controllerRunning then
    ({ s with controllerRunning := false, ticksWithoutControl := 0, valveCommand := 0 }, true)
  else (s, false)

@[simp] theorem State.crash_snd (s : State) : s.crash.2 = s.controllerRunning := by
  unfold crash; split <;> simp_all

@[simp] theorem State.controllerRunning_crash (s : State) :
    s.crash.1.controllerRunning = false := by
  unfold crash; split <;> simp_all

theorem State.crash_of_not_running {s : State} (h : s.controllerRunning = false) :
    s.crash = (s, false) := by
  simp [crash, h]

end HeatingPlant
