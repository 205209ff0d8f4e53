import HeatingPlant.Journal.Notice
import HeatingPlant.Net.Endpoint
import HeatingPlant.Simulation

/-!
# Settings

Everything about the service that its operator may choose.

## Main definitions

* `CommonSettings`, `ServerSettings`, `TimerSettings`, `InitialConditions` — the sections that are
  not plain constants of the plant
* `Settings` — all sections; `Settings.reference` and `Settings.loopback`
* `InitialConditions.state` — the plant at startup
* `Settings.dynamics`, `Settings.timer` — how the plant moves, and the timer that moves it

## Design notes

A shorter tick makes the plant's steps finer, not faster: the length of a step in seconds is the
tick.
-/

namespace HeatingPlant

/-- Name and journal of the service. -/
structure CommonSettings where
  /-- Least urgent notices that the journal takes. -/
  logLevel : Level
  /-- What this instance is called. -/
  serviceName : String
  /-- File that the journal is appended to; without one it goes to standard error. -/
  logFile : Option String
  deriving DecidableEq, Repr

/-- Where and for how many clients the service listens. -/
structure ServerSettings where
  /-- Where to listen. -/
  listen : Endpoint
  /-- Most clients at a time; `none` is any number. -/
  maxClients : Option UInt64
  deriving DecidableEq, Repr

/-- The cadence of the timer. -/
structure TimerSettings where
  /-- Milliseconds per tick. -/
  tickInterval : UInt64
  /-- Ticks between two reports; zero for none. -/
  reportEvery : UInt32
  deriving DecidableEq, Repr

/-- The plant at startup. -/
structure InitialConditions where
  /-- Indoor temperature [°C]. -/
  insideTemperature : Float
  /-- Outdoor temperature [°C]. -/
  outsideTemperature : Float
  /-- Supply temperature of the district heating [°C]. -/
  supplyTemperature : Float
  /-- Wanted indoor temperature [°C]. -/
  setpoint : Float
  /-- Valve opening, asked for and reached [%]. -/
  valve : UInt8
  /-- Who commands the valve. -/
  mode : ControlMode
  deriving DecidableEq, Repr

/-- All settings of the service. -/
structure Settings where
  /-- Name and journal. -/
  common : CommonSettings
  /-- Where to listen. -/
  server : ServerSettings
  /-- The timer. -/
  timing : TimerSettings
  /-- The building. -/
  thermal : ThermalParameters
  /-- The controller. -/
  controller : Controller
  /-- The plant at startup. -/
  startup : InitialConditions
  deriving DecidableEq, Repr

/-- A service without a choice of its own. -/
def CommonSettings.reference : CommonSettings := ⟨.info, "frost-plc", none⟩

/-- Every local address, the standard port, any number of clients. -/
def ServerSettings.reference : ServerSettings := ⟨.standard, none⟩

/-- One tick per second and a report every ten. -/
def TimerSettings.reference : TimerSettings := ⟨1000, 10⟩

namespace InitialConditions

/-- The reference plant at rest. -/
def reference : InitialConditions where
  insideTemperature := 20
  outsideTemperature := -15
  supplyTemperature := 90
  setpoint := 20
  valve := 50
  mode := .auto

/-- The plant at startup: the valve has reached its command, and the status is that of the
temperature. -/
def state (conditions : InitialConditions) : State :=
  { State.initial with
    insideTemperature := conditions.insideTemperature
    outsideTemperature := conditions.outsideTemperature
    supplyTemperature := conditions.supplyTemperature
    setpoint := conditions.setpoint
    valveCommand := conditions.valve
    valvePosition := conditions.valve
    mode := conditions.mode
    status := .ofTemperature conditions.insideTemperature }

end InitialConditions

/-- Seconds per tick. -/
def TimerSettings.dt (timing : TimerSettings) : Float := timing.tickInterval.toFloat / 1000

namespace Settings

/-- The reference plant. -/
def reference : Settings where
  common := .reference
  server := .reference
  timing := .reference
  thermal := .reference
  controller := .reference
  startup := .reference

instance : Inhabited Settings := ⟨reference⟩

/-- The settings with another place to listen. -/
def listeningOn (listen : Endpoint) (settings : Settings) : Settings :=
  { settings with server := { settings.server with listen := listen } }

/-- The reference plant on any free loopback port. -/
def loopback : Settings := reference.listeningOn (.loopback 0)

/-- How the plant moves. -/
def dynamics (settings : Settings) : Dynamics where
  thermal := settings.thermal
  controller := settings.controller
  dt := settings.timing.dt

/-- The timer at startup. -/
def timer (settings : Settings) : Timer where
  dynamics := settings.dynamics
  reportEvery := settings.timing.reportEvery.toNat

end Settings

end HeatingPlant
