import HeatingPlant.Plant.State
import HeatingPlant.Plant.Valve

/-!
# The thermal model

One tick of the plant: the valve travels, the building gains and loses heat, the status follows.

## Main definitions

* `ThermalParameters` — the constants of the building
* `State.tick` — one tick, with the change of status it brought
* `StatusChange` — a status and the different one that replaced it

## Design notes

A dead controller leaves the valve where it was and lets no heat through.  A plant whose pipes have
burst does not move at all.  The heat balance is plain binary64 in the order written here.
-/

namespace HeatingPlant

/-- Constants of the building and its valve. -/
structure ThermalParameters where
  /-- Heat lost per second and degree between inside and outside. -/
  lossFactor : Float
  /-- Power at a fully open valve [kW]. -/
  maxPower : Float
  /-- Power that heats the building by one degree per second. -/
  thermalMass : Float
  /-- Valve travel [%/s]. -/
  slewRate : Float
  deriving DecidableEq, Repr

/-- The reference building. -/
def ThermalParameters.reference : ThermalParameters where
  lossFactor := 0.015
  maxPower := 80
  thermalMass := 30
  slewRate := 5

instance : Inhabited ThermalParameters := ⟨.reference⟩

/-- A status and the different one that replaced it. -/
structure StatusChange where
  /-- Status before. -/
  before : Status
  /-- Status after. -/
  after : Status
  deriving DecidableEq, Repr

namespace Thermal

/-- Lowest indoor temperature of the model [°C]. -/
def coldest : Float := -30

/-- Highest indoor temperature of the model [°C]. -/
def warmest : Float := 50

/-- `temperature` held inside the range of the model; what is not a number stays so. -/
def hold (temperature : Float) : Float :=
  if temperature < coldest then coldest
  else if warmest < temperature then warmest
  else temperature

/-- Whole percent the valve may travel in `dt` seconds. -/
def travel (parameters : ThermalParameters) (dt : Float) : Int :=
  Number.toInt32 (parameters.slewRate * dt)

end Thermal

namespace State

/-- The part of full flow that the valve lets through: none under a dead controller. -/
def opening (s : State) : Float :=
  if s.controllerRunning then s.valvePosition.toFloat / 100 else 0

/-- The clocks after one more tick: the runtime wraps around, the ticks without control stop at
their largest value. -/
def advanceClocks (s : State) : State :=
  { s with
    runtime := s.runtime + 1
    ticksWithoutControl :=
      if s.controllerRunning then s.ticksWithoutControl
      else if s.ticksWithoutControl = 4294967295 then 4294967295
      else s.ticksWithoutControl + 1 }

/-- The valve after one tick: a live controller moves it, and it never stands beyond fully open. -/
def moveValve (parameters : ThermalParameters) (dt : Float) (s : State) : State :=
  { s with
    valvePosition :=
      min
        (if s.controllerRunning then
          Valve.slew s.valvePosition s.valveCommand (Thermal.travel parameters dt)
        else s.valvePosition)
        Valve.fullyOpen }

/-- The indoor temperature and the delivered power after `dt` seconds. -/
def exchangeHeat (parameters : ThermalParameters) (dt : Float) (s : State) : State :=
  let loss := (s.insideTemperature - s.outsideTemperature) * parameters.lossFactor
  let gain := s.opening * parameters.maxPower / parameters.thermalMass
  { s with
    insideTemperature := Thermal.hold (s.insideTemperature + (gain - loss) * dt)
    heaterPower := s.opening * parameters.maxPower }

/-- The status that the temperature asks for; a burst is remembered for good. -/
def reclassify (s : State) : State :=
  if s.status = .burst then s
  else
    let status := Status.ofTemperature s.insideTemperature
    if status = .frozen ∧ atBurstPoint s.insideTemperature then
      { s with status := .burst, pipesBurst := true }
    else { s with status := status }

/-- The plant `dt` seconds later, and the change of status if there was one. -/
def tick (parameters : ThermalParameters) (dt : Float) (s : State) : State × Option StatusChange :=
  if s.pipesBurst then (s, none)
  else
    let next := (((s.advanceClocks).moveValve parameters dt).exchangeHeat parameters dt).reclassify
    (next, if s.status = next.status then none else some ⟨s.status, next.status⟩)

@[simp] theorem tick_of_pipesBurst {parameters : ThermalParameters} {dt : Float} {s : State}
    (h : s.pipesBurst = true) : s.tick parameters dt = (s, none) := by
  simp [tick, h]

end State

end HeatingPlant
