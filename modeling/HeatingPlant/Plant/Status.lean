/-!
# Plant status

How badly the plant stands, from normal operation to burst pipes.

## Main definitions

* `Status` — the five states, in order of severity
* `Status.ofTemperature` — classification of an indoor temperature
* `atBurstPoint` — whether frozen pipes at this temperature burst

## Design notes

Thresholds are inclusive from above: at exactly 10 °C the plant already warns.  A temperature that
is not a number compares with nothing and so counts as normal.  `Status.ofTemperature` never
answers `burst`: bursting is an event that the thermal step remembers, not a temperature.
-/

namespace HeatingPlant

/-- Plant status; the constructors stand in order of severity. -/
inductive Status where
  | normal
  | warning
  | critical
  | frozen
  | burst
  deriving DecidableEq, Repr, Inhabited

namespace Status

/-- At or below this temperature [°C] the occupants are at risk. -/
def warningPoint : Float := 10

/-- At or below this temperature [°C] the pipes are at risk. -/
def criticalPoint : Float := 5

/-- At or below this temperature [°C] the pipes are frozen. -/
def freezingPoint : Float := 0

/-- At or below this temperature [°C] frozen pipes burst. -/
def burstPoint : Float := -2

/-- Position in the order of severity. -/
def severity : Status → Nat
  | normal => 0
  | warning => 1
  | critical => 2
  | frozen => 3
  | burst => 4

instance : LE Status := ⟨fun a b => a.severity ≤ b.severity⟩
instance : LT Status := ⟨fun a b => a.severity < b.severity⟩
instance (a b : Status) : Decidable (a ≤ b) :=
  inferInstanceAs (Decidable (a.severity ≤ b.severity))

instance (a b : Status) : Decidable (a < b) :=
  inferInstanceAs (Decidable (a.severity < b.severity))

theorem severity_injective {a b : Status} (h : a.severity = b.severity) : a = b := by
  cases a <;> cases b <;> simp_all [severity]

/-- The word that publishes a status. -/
def code (status : Status) : UInt16 := UInt16.ofNat status.severity

/-- The operator's word for a status. -/
def label : Status → String
  | normal => "NORMAL"
  | warning => "WARNING"
  | critical => "CRITICAL"
  | frozen => "FROZEN"
  | burst => "BURST"

/-- The status that an indoor temperature alone gives. -/
def ofTemperature (temperature : Float) : Status :=
  if temperature ≤ freezingPoint then frozen
  else if temperature ≤ criticalPoint then critical
  else if temperature ≤ warningPoint then warning
  else normal

theorem ofTemperature_ne_burst (temperature : Float) : ofTemperature temperature ≠ burst := by
  unfold ofTemperature
  split
  · decide
  · split
    · decide
    · split <;> decide

end Status

/-- Whether frozen pipes at this temperature burst. -/
def atBurstPoint (temperature : Float) : Bool := temperature ≤ Status.burstPoint

end HeatingPlant
