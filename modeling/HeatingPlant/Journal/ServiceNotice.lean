import HeatingPlant.Session
import HeatingPlant.Settings.Check

/-!
# Notices of the service

What the service has to tell besides what happens to the plant and within its sessions.

## Main definitions

* `Obstacle` — what can stand in the way of a client that was not turned away
* `ServiceNotice` — the things worth telling
* `ServiceNotice.entry` — a notice put into words
-/

namespace HeatingPlant

/-- The name of the program. -/
def programName : String := "frost_plc"

/-- The version of the program. -/
def programVersion : String := "0.1.0"

/-- Why a session ended, in words. -/
def SessionEnd.label : SessionEnd → String
  | peerClosed => "PeerClosed"
  | shutdown => "Shutdown"
  | backendCrash => "BackendCrash"
  | fault cause => "Fault(" ++ cause.message ++ ")"

/-- What can stand in the way of a client that was not turned away, with the reason that the system
gives. -/
inductive Obstacle where
  /-- Its connection cannot be set up. -/
  | socket (reason : String)
  /-- There is no second handle to its connection. -/
  | handle (reason : String)
  /-- The protocol cannot be opened over its connection. -/
  | codec (reason : String)
  /-- There is no thread for its session. -/
  | thread (reason : String)
  deriving DecidableEq, Repr

/-- The wording of an obstacle. -/
def Obstacle.message : Obstacle → String
  | socket reason => "Failed to configure client socket: " ++ reason
  | handle reason => "Failed to clone client socket: " ++ reason
  | codec reason => "Failed to open codec: " ++ reason
  | thread reason => "Failed to spawn session thread: " ++ reason

/-- The things worth telling about the service. -/
inductive ServiceNotice where
  /-- Something about the plant or a session. -/
  | plant (notice : Notice)
  /-- The service starts. -/
  | starting (serviceName : String)
  /-- Where the settings came from. -/
  | settingsFrom (path : Option String)
  /-- The plant at startup. -/
  | startup (conditions : InitialConditions)
  /-- The service listens. -/
  | listening (endpoint : Endpoint)
  /-- The service waits for clients. -/
  | waiting
  /-- The timer runs. -/
  | timerStarted (timing : TimerSettings)
  /-- A client was let in; there are that many now. -/
  | connected (session : Nat) (peer : Endpoint) (clients : Nat)
  /-- A client was turned away, as the limit is reached. -/
  | refused (peer : Endpoint) (limit : Nat)
  /-- A client was let go, as something stood in its way; its session would have had that number. -/
  | letGo (session : Nat) (peer : Endpoint) (obstacle : Obstacle)
  /-- A session ended after that many requests; there are that many clients left. -/
  | disconnected (session : Nat) (peer : Endpoint) (served clients : Nat) (finish : SessionEnd)
  /-- The service stops and closes its sessions. -/
  | closing (sessions : Nat)
  /-- The timer stopped. -/
  | timerStopped (steps : Nat)
  /-- The operator asked the service to stop. -/
  | interrupted
  /-- The service has stopped. -/
  | finished (serviceName : String) (state : State)
  /-- The service could not start. -/
  | failed (reason : String)
  deriving DecidableEq, Repr

namespace ServiceNotice

/-- How urgent a notice is. -/
def level : ServiceNotice → Level
  | plant notice => notice.level
  | refused .. => .warn
  | letGo _ _ (.thread _) => .error
  | letGo .. => .warn
  | disconnected _ _ _ _ finish => if finish = .backendCrash then .warn else .info
  | failed _ => .error
  | _ => .info

/-- The wording of a notice. -/
def message : ServiceNotice → String
  | plant notice => notice.message
  | starting name => name ++ " v" ++ programVersion ++ " starting..."
  | settingsFrom (some path) => "Configuration loaded from " ++ path
  | settingsFrom none => "No configuration file given, using built-in defaults"
  | startup conditions =>
    "Initial plant: inside " ++ temperatureText conditions.insideTemperature ++
      ", outside " ++ temperatureText conditions.outsideTemperature ++
      ", supply " ++ temperatureText conditions.supplyTemperature ++
      ", setpoint " ++ temperatureText conditions.setpoint ++
      s!", valve {conditions.valve.toNat}%, mode {conditions.mode.label}"
  | listening endpoint => "Modbus server listening on " ++ endpoint.text
  | waiting => "Waiting for client connections..."
  | timerStarted timing =>
    s!"Simulation started (interval={timing.tickInterval.toNat}ms, dt=" ++
      Decimal.shortestText timing.dt ++ "s)"
  | connected .. => "Client connected"
  | refused .. => "Client limit reached, rejecting connection"
  | letGo _ _ obstacle => obstacle.message
  | disconnected _ _ _ _ finish =>
    if finish = .backendCrash then "Client disconnected after backend crash"
    else "Client disconnected"
  | closing sessions => s!"Supervisor stopping, closed {sessions} live sessions"
  | timerStopped steps => s!"Simulation stopped after {steps} ticks"
  | interrupted => "Received shutdown signal"
  | finished name _ => name ++ " shutdown complete"
  | failed reason => "PLC startup failed: " ++ reason

/-- The details of a notice. -/
def fields : ServiceNotice → List (String × FieldValue)
  | plant notice => notice.fields
  | connected session peer clients =>
    [("session", .natural session), ("peer", .text peer.text), ("clients", .natural clients)]
  | refused peer limit => [("peer", .text peer.text), ("max", .natural limit)]
  | letGo session peer (.thread _) => [("session", .natural session), ("peer", .text peer.text)]
  | letGo _ peer _ => [("peer", .text peer.text)]
  | disconnected session peer served clients finish =>
    [("session", .natural session), ("peer", .text peer.text), ("served", .natural served),
      ("clients", .natural clients)] ++
      if finish = .backendCrash then [] else [("reason", .text finish.label)]
  | finished _ s =>
    [("inside_temp", .real s.insideTemperature), ("status", .text s.status.label),
      ("mode", .text s.serverMode.label), ("runtime", .natural s.runtime.toNat),
      ("pipes_burst", .flag s.pipesBurst)]
  | _ => []

/-- A notice put into words. -/
def entry (notice : ServiceNotice) : Entry := ⟨notice.level, notice.message, notice.fields⟩

end ServiceNotice

end HeatingPlant
