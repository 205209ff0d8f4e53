import HeatingPlant.Plant.Crash
import HeatingPlant.Plant.Thermal
import HeatingPlant.Modbus.Fault
import HeatingPlant.Net.Endpoint

/-!
# Notices

What the plant and its connections have to tell their operator.

## Main definitions

* `Level` — how urgent a notice is
* `Notice` — the things worth telling
* `Notice.level`, `Notice.message`, `Notice.fields` — a notice put into words
* `Notice.entry` — all three together

## Design notes

A notice is data: who brings something about returns it, and only the outermost layer writes it
down. Temperatures are worded with one digit after the point.
-/

namespace HeatingPlant

/-- How urgent a notice is. -/
inductive Level where
  | trace
  | debug
  | info
  | warn
  | error
  deriving DecidableEq, Repr, Inhabited

namespace Level

/-- Position in the order of urgency. -/
def urgency : Level → Nat
  | trace => 0
  | debug => 1
  | info => 2
  | warn => 3
  | error => 4

/-- The name of a level in a journal line. -/
def label : Level → String
  | trace => "TRACE"
  | debug => "DEBUG"
  | info => "INFO"
  | warn => "WARN"
  | error => "ERROR"

/-- The name of a level in the settings. -/
def keyword : Level → String
  | trace => "trace"
  | debug => "debug"
  | info => "info"
  | warn => "warn"
  | error => "error"

/-- The level with a name, if there is one. -/
def ofKeyword? (name : String) : Option Level :=
  [trace, debug, info, warn, error].find? fun level => level.keyword = name

@[simp] theorem ofKeyword?_keyword (level : Level) : ofKeyword? level.keyword = some level := by
  cases level <;> rfl

end Level

/-- The value of a notice's field. -/
inductive FieldValue where
  /-- A whole number. -/
  | natural (value : Nat)
  /-- A measured quantity. -/
  | real (value : Float)
  /-- A text. -/
  | text (value : String)
  /-- A yes or no. -/
  | flag (value : Bool)
  deriving DecidableEq, Repr

/-- A notice put into words. -/
structure Entry where
  /-- How urgent it is. -/
  level : Level
  /-- Its wording. -/
  message : String
  /-- Its details, by name. -/
  fields : List (String × FieldValue)
  deriving DecidableEq, Repr

/-- The things worth telling. -/
inductive Notice where
  /-- A session received a request of that many bytes. -/
  | received (session bytes : Nat)
  /-- A session sent a reply of that many bytes. -/
  | sent (session bytes : Nat)
  /-- The protocol backend failed under a session. -/
  | backendFailed (session : Nat) (peer : Endpoint) (fault : Modbus.Fault)
  /-- A session ended on a fault of its own. -/
  | dropped (session : Nat) (peer : Endpoint) (fault : Modbus.Fault)
  /-- The controller crashed, and the valve stays where it is. -/
  | controllerCrashed (reason : String) (valvePosition : UInt8)
  /-- The pipes burst. -/
  | pipesBurst (temperature : Float) (ticksWithoutControl : UInt32)
  /-- The status changed to one other than burst. -/
  | statusChanged (change : StatusChange) (temperature : Float)
  /-- The periodic report. -/
  | statusLine (state : State)
  deriving DecidableEq, Repr

/-- A temperature with one digit after the point. -/
def temperatureText (temperature : Float) : String := Decimal.fixedText 1 temperature ++ "°C"

namespace Notice

/-- How urgent a notice is: a change for the worse warns, one for the better informs. -/
def level : Notice → Level
  | received .. | sent .. => .debug
  | backendFailed .. | controllerCrashed .. | pipesBurst .. => .error
  | dropped .. => .warn
  | statusChanged change _ => if change.before < change.after then .warn else .info
  | statusLine _ => .info

/-- The wording of a notice. -/
def message : Notice → String
  | received _ bytes => s!"Received Modbus request: {bytes} bytes"
  | sent _ bytes => s!"Sent Modbus reply: {bytes} bytes"
  | backendFailed _ _ fault => "Modbus backend failed: " ++ fault.message
  | dropped _ _ fault => "Dropping connection: " ++ fault.message
  | controllerCrashed _ position =>
    s!"Controller crashed! Valve frozen at {position.toNat}%, server DEGRADED"
  | pipesBurst temperature _ => "PIPES BURST at " ++ temperatureText temperature ++ ", plant lost"
  | statusChanged change temperature =>
    s!"Status {change.before.label} -> {change.after.label} at " ++ temperatureText temperature
  | statusLine s =>
    "Inside " ++ temperatureText s.insideTemperature ++ " (setpoint " ++
      temperatureText s.setpoint ++ "), status " ++ s.status.label

/-- The details of a notice. -/
def fields : Notice → List (String × FieldValue)
  | received session bytes | sent session bytes =>
    [("session", .natural session), ("bytes", .natural bytes)]
  | backendFailed session peer _ | dropped session peer _ =>
    [("session", .natural session), ("peer", .text peer.text)]
  | controllerCrashed reason _ => [("reason", .text reason)]
  | pipesBurst _ ticks => [("time_without_control", .natural ticks.toNat)]
  | statusChanged .. => []
  | statusLine s =>
    [("runtime", .natural s.runtime.toNat),
      ("valve_cmd", .natural s.valveCommand.toNat),
      ("valve_actual", .natural s.valvePosition.toNat),
      ("heater_kw", .real s.heaterPower),
      ("mode", .text s.mode.label),
      ("server", .text s.serverMode.label)]

/-- A notice put into words. -/
def entry (notice : Notice) : Entry := ⟨notice.level, notice.message, notice.fields⟩

/-- Whether a notice tells of a change of status, the burst included. -/
def isStatusChange : Notice → Bool
  | pipesBurst .. | statusChanged .. => true
  | _ => false

end Notice

/-- The crash of the controller, whether it came about just now, and the notice of it, which is
given that one time. -/
def State.reportCrash (reason : String) (s : State) : State × Bool × List Notice :=
  let (next, crashed) := s.crash
  (next, crashed, if crashed then [.controllerCrashed reason next.valvePosition] else [])

end HeatingPlant
