import HeatingPlant.Plant.State
import HeatingPlant.Plant.Valve

/-!
# The temperature controller

A proportional band around the setpoint: fully open below it, shut above it, linear inside.

## Main definitions

* `Controller` — its one constant, the half-width of the band
* `Controller.command` — the valve command for an error
* `State.control` — one step of the controller on the plant
-/

namespace HeatingPlant

/-- Tuning of the controller. -/
structure Controller where
  /-- Half-width of the proportional band [°C]. -/
  deadband : Float
  deriving DecidableEq, Repr

namespace Controller

/-- The reference tuning. -/
def reference : Controller := ⟨2⟩

instance : Inhabited Controller := ⟨reference⟩

/-- The valve command for `error`, the setpoint less the indoor temperature. -/
def command (controller : Controller) (error : Float) : UInt8 :=
  if controller.deadband < error then Valve.fullyOpen
  else if error < -controller.deadband then 0
  else Valve.ofPercent (Number.toInt32 (50 + 50 * (error / controller.deadband)))

theorem command_le (controller : Controller) (error : Float) :
    controller.command error ≤ Valve.fullyOpen := by
  unfold command
  split
  · exact UInt8.le_refl _
  · split
    · decide
    · exact Valve.ofPercent_le _

end Controller

/-- Whether the controller acts: it is alive, in charge, and the pipes are whole. -/
def State.underControl (s : State) : Bool :=
  s.controllerRunning && s.mode = .auto && !s.pipesBurst

/-- One step of the controller: a new valve command, if it acts at all. -/
def State.control (controller : Controller) (s : State) : State :=
  if s.underControl then
    { s with valveCommand := controller.command (s.setpoint - s.insideTemperature) }
  else s

end HeatingPlant
