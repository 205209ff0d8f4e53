import HeatingPlant.Settings.Sections

/-!
# Checking settings

Which settings the plant can run with.

## Main definitions

* `Defect` — what can be wrong with settings, with its wording
* `Settings.checks` — all defects in order, each with whether the settings have it
* `Settings.defect?` — the first of them
* `Settings.Valid` — settings without a defect

## Design notes

Each check names the defect that it looks for, so that settings are valid exactly if every condition
on the list is false.  The valve moves in whole percent: unless it travels at least one per tick it
never moves.  A value that is not a number lies in no range.
-/

namespace HeatingPlant

/-- What can be wrong with settings. -/
inductive Defect where
  | serviceNameEmpty
  | noClients
  | noTickInterval
  | lossFactor
  | maxPower
  | thermalMass
  | slewRate
  /-- The valve travels less than one percent per tick. -/
  | valveStuck (slewRate : Float) (tickInterval : UInt64)
  | deadband
  | setpoint
  | valve
  | insideTemperature
  | temperatures
  deriving DecidableEq, Repr

/-- What is wrong, in words. -/
def Defect.message : Defect → String
  | serviceNameEmpty => "service_name cannot be empty"
  | noClients => "server.max_clients must be at least 1"
  | noTickInterval => "simulation.tick_interval_ms must be > 0"
  | lossFactor => "physics.loss_factor must be finite and >= 0"
  | maxPower => "physics.max_power_kw must be finite and >= 0"
  | thermalMass => "physics.thermal_mass must be finite and > 0"
  | slewRate => "physics.slew_rate must be finite and >= 0"
  | valveStuck rate interval =>
    "physics.slew_rate * tick interval must be >= 1 %/tick (got " ++
      Decimal.shortestText rate ++ s!" %/s at {interval.toNat} ms)"
  | deadband => "controller.deadband must be finite and > 0"
  | setpoint => "initial.setpoint must be within 0..=40"
  | valve => s!"initial.valve must be within 0..={Valve.fullyOpen.toNat}"
  | insideTemperature => "initial.inside_temp must be within -30..=50"
  | temperatures => "initial temperatures must be finite"

/-- Whether a quantity is finite and at least zero. -/
def isFiniteNonneg (x : Float) : Bool := x.isFinite && !(x < 0)

/-- Whether a quantity is finite and more than zero. -/
def isFinitePositive (x : Float) : Bool := x.isFinite && !(x ≤ 0)

/-- Whether a quantity lies between two others. -/
def isBetween (low high x : Float) : Bool := low ≤ x && x ≤ high

/-- Largest setpoint at startup [°C]. -/
def largestSetpoint : Float := 40

/-- The one check of the common section. -/
def CommonSettings.checks (common : CommonSettings) : List (Defect × Bool) :=
  [(.serviceNameEmpty, common.serviceName = "")]

/-- The first defect of the common section. -/
def CommonSettings.defect? (common : CommonSettings) : Option Defect :=
  (common.checks.find? (·.2)).map (·.1)

namespace Settings

/-- All defects in the order in which they are looked for, each with whether the settings have it.
-/
def checks (settings : Settings) : List (Defect × Bool) :=
  let thermal := settings.thermal
  let startup := settings.startup
  let tickInterval := settings.timing.tickInterval
  let others : List (Defect × Bool) :=
    [(.noClients, settings.server.maxClients = some 0),
      (.noTickInterval, tickInterval = 0),
      (.lossFactor, !isFiniteNonneg thermal.lossFactor),
      (.maxPower, !isFiniteNonneg thermal.maxPower),
      (.thermalMass, !isFinitePositive thermal.thermalMass),
      (.slewRate, !isFiniteNonneg thermal.slewRate),
      (.valveStuck thermal.slewRate tickInterval, thermal.slewRate * settings.timing.dt < 1),
      (.deadband, !isFinitePositive settings.controller.deadband),
      (.setpoint, !isBetween 0 largestSetpoint startup.setpoint),
      (.valve, Valve.fullyOpen < startup.valve),
      (.insideTemperature,
        !isBetween Thermal.coldest Thermal.warmest startup.insideTemperature),
      (.temperatures,
        !(startup.outsideTemperature.isFinite && startup.supplyTemperature.isFinite))]
  settings.common.checks ++ others

/-- The first defect, if there is one. -/
def defect? (settings : Settings) : Option Defect :=
  (settings.checks.find? (·.2)).map (·.1)

/-- Settings without a defect. -/
def Valid (settings : Settings) : Prop := settings.defect? = none

instance (settings : Settings) : Decidable settings.Valid :=
  inferInstanceAs (Decidable (_ = _))

theorem valid_iff {settings : Settings} :
    settings.Valid ↔ ∀ check ∈ settings.checks, check.2 = false := by
  simp [Valid, defect?, List.find?_eq_none]

end Settings

/-- Why there are no settings to start with. -/
inductive SettingsError where
  /-- The file is not there. -/
  | notFound
  /-- The file cannot be read, is no document, or does not say settings. -/
  | unreadable
  /-- The settings have a defect. -/
  | invalid (defect : Defect)
  deriving DecidableEq, Repr

/-- The wording of a failure to get settings. -/
def SettingsError.message : SettingsError → String
  | notFound => "Configuration file not found"
  | unreadable => "Failed to parse configuration"
  | invalid defect => "Configuration validation failed: " ++ defect.message

/-- The settings themselves if they are valid, otherwise their first defect. -/
def Settings.checked (settings : Settings) : Except SettingsError Settings :=
  match settings.defect? with
  | some defect => .error (.invalid defect)
  | none => .ok settings

end HeatingPlant
