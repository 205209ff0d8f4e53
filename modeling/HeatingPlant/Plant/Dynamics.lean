import HeatingPlant.Plant.Thermal
import HeatingPlant.Plant.Controller

/-!
# Plant and controller together

One step of time: the building moves, then the controller answers.

## Main definitions

* `Dynamics` — the building, the tuning and the length of a step
* `State.step` — one step
-/

namespace HeatingPlant

/-- Everything that decides how the plant moves on its own. -/
structure Dynamics where
  /-- The building and its valve. -/
  thermal : ThermalParameters
  /-- The tuning of the controller. -/
  controller : Controller
  /-- Seconds per step. -/
  dt : Float
  deriving DecidableEq, Repr

/-- One step of time, with the change of status that the tick brought. -/
def State.step (dynamics : Dynamics) (s : State) : State × Option StatusChange :=
  let (ticked, change) := s.tick dynamics.thermal dynamics.dt
  (ticked.control dynamics.controller, change)

end HeatingPlant
