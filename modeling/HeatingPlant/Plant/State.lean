import HeatingPlant.Plant.Status

/-!
# Plant state

The one record that the timer and every client share.

## Main definitions

* `ControlMode`, `ServerMode` — who commands the valve, and whether the controller is alive
* `State` — the physical and control variables of the plant
* `State.initial` — the reference plant at rest
-/

namespace HeatingPlant

/-- Who commands the valve. -/
inductive ControlMode where
  /-- The client. -/
  | manual
  /-- The temperature controller. -/
  | auto
  deriving DecidableEq, Repr, Inhabited

namespace ControlMode

/-- The word that publishes a mode. -/
def code : ControlMode → UInt16
  | manual => 0
  | auto => 1

/-- The mode that a word names, if any. -/
def ofCode? (code : UInt16) : Option ControlMode :=
  if code = 0 then some manual else if code = 1 then some auto else none

/-- The operator's word for a mode. -/
def label : ControlMode → String
  | manual => "Manual"
  | auto => "Auto"

/-- The name of a mode in the settings. -/
def keyword : ControlMode → String
  | manual => "manual"
  | auto => "auto"

/-- The mode with a name, if there is one. -/
def ofKeyword? (name : String) : Option ControlMode :=
  [manual, auto].find? fun mode => mode.keyword = name

@[simp] theorem ofKeyword?_keyword (mode : ControlMode) : ofKeyword? mode.keyword = some mode := by
  cases mode <;> rfl

@[simp] theorem ofCode?_code (mode : ControlMode) : ofCode? mode.code = some mode := by
  cases mode <;> rfl

theorem ofCode?_eq_some_iff {code : UInt16} {mode : ControlMode} :
    ofCode? code = some mode ↔ code = mode.code := by
  constructor
  · unfold ofCode?
    intro h
    split at h
    · cases h; assumption
    · split at h
      · cases h; assumption
      · cases h
  · rintro rfl
    exact ofCode?_code mode

end ControlMode

/-- Whether the controller is alive.  There is no way back from `degraded`. -/
inductive ServerMode where
  | running
  | degraded
  deriving DecidableEq, Repr, Inhabited

/-- The operator's word for a server mode. -/
def ServerMode.label : ServerMode → String
  | running => "Running"
  | degraded => "Degraded"

/-- Physical and control variables of the plant. -/
structure State where
  /-- Indoor temperature [°C]. -/
  insideTemperature : Float
  /-- Outdoor temperature [°C]. -/
  outsideTemperature : Float
  /-- Supply temperature of the district heating [°C]. -/
  supplyTemperature : Float
  /-- Wanted indoor temperature [°C]. -/
  setpoint : Float
  /-- Valve opening asked for [%]. -/
  valveCommand : UInt8
  /-- Valve opening reported by the actuator [%]. -/
  valvePosition : UInt8
  /-- Who commands the valve. -/
  mode : ControlMode
  /-- How badly the plant stands. -/
  status : Status
  /-- Ticks since startup. -/
  runtime : UInt32
  /-- Heating power delivered [kW]. -/
  heaterPower : Float
  /-- Whether the controller is alive. -/
  controllerRunning : Bool
  /-- Ticks since the controller died. -/
  ticksWithoutControl : UInt32
  /-- Set once the pipes have burst. -/
  pipesBurst : Bool
  deriving DecidableEq, Repr

namespace State

/-- The reference plant at rest: 20 °C inside, winter outside, the valve half open. -/
def initial : State where
  insideTemperature := 20
  outsideTemperature := -15
  supplyTemperature := 90
  setpoint := 20
  valveCommand := 50
  valvePosition := 50
  mode := .auto
  status := .normal
  runtime := 0
  heaterPower := 0
  controllerRunning := true
  ticksWithoutControl := 0
  pipesBurst := false

instance : Inhabited State := ⟨initial⟩

/-- The server mode that a state implies. -/
def serverMode (s : State) : ServerMode :=
  if s.controllerRunning then .running else .degraded

end State

end HeatingPlant
