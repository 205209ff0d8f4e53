import HeatingPlant.Connection
import HeatingPlant.Net.Binding

/-!
# The service

One plant, its timer, and the clients that are connected to it.

## Main definitions

* `Service` — the plant, the timer, the count of clients, the register and the connections
* `Service.letIn`, `Service.connect` — a client that comes
* `Service.receive`, `Service.cutOff`, `Service.finishInput` — what else clients do
* `Service.advance`, `Service.retire` — one turn of a session, and one step of wrapping up its end
* `Service.turn`, `Service.settle` — a turn with all that follows, and all that the bytes allow
* `Service.tick` — one step of the timer
* `Service.stop`, `Service.shutDown` — the end of the service
* `Telemetry` — what the service tells about itself
* `StartError` — why there is no service
* `Service.start?`, `Service.listen?` — the service, or why there is none

## Design notes

Sessions are numbered from one on, and a client that is turned away gets no number.  The count of
clients, the register and the connections are kept apart: the count is what operators see and what
the limit is held against, the register is how the service reaches sessions that wait for bytes,
and the connections are the sessions themselves.  They are changed at different moments.  A client
is counted before it is known whether its session can start, and let go again if it cannot; a
session that has ended first loses its entry and then frees its slot, and anything may happen in
between.
-/

namespace HeatingPlant

open Modbus

/-- One plant, its timer and its clients. -/
structure Service where
  /-- Most clients at a time; `none` is any number. -/
  limit : Option Nat
  /-- The timer. -/
  timer : Timer
  /-- The plant. -/
  plant : State
  /-- Number of clients. -/
  clients : Nat
  /-- Number of the next session. -/
  nextId : Nat
  /-- The sessions that the service can reach. -/
  registry : List Nat
  /-- The sessions that hold a slot. -/
  connections : List Connection
  /-- Whether the service stops. -/
  stopping : Bool

/-- Why the service cannot start. -/
inductive StartError where
  /-- Its settings are no good. -/
  | settings (cause : SettingsError)
  /-- It cannot listen where it should. -/
  | bind (endpoint : Endpoint) (reason : String)
  deriving DecidableEq, Repr

/-- The wording of a failure to start. -/
def StartError.message : StartError → String
  | settings cause => "Configuration error: " ++ cause.message
  | bind endpoint reason => "Failed to bind " ++ endpoint.text ++ ": " ++ reason

/-- What the service tells about itself. -/
structure Telemetry where
  /-- The plant. -/
  plant : State
  /-- Number of clients. -/
  clients : Nat
  /-- Whether the controller is alive. -/
  mode : ServerMode
  deriving DecidableEq, Repr

namespace Service

/-- The service at startup. -/
def start (settings : Settings) : Service where
  limit := settings.server.maxClients.map (·.toNat)
  timer := settings.timer
  plant := settings.startup.state
  clients := 0
  nextId := 1
  registry := []
  connections := []
  stopping := false

/-- The service for settings that are valid, otherwise why there is none. -/
def start? (settings : Settings) : Except StartError Service :=
  match settings.checked with
  | .ok settings => .ok (start settings)
  | .error e => .error (.settings e)

/-- The service once it listens, on a computer without a network. -/
def listen? (settings : Settings) : Except StartError Service := do
  let service ← start? settings
  let endpoint := settings.server.listen
  match endpoint.refusal? with
  | none => return service
  | some refusal => .error (.bind endpoint refusal.message)

/-- What the service tells about itself. -/
def telemetry (service : Service) : Telemetry :=
  ⟨service.plant, service.clients, service.plant.serverMode⟩

/-- Whether no more clients may come in. -/
def isFull (service : Service) : Bool :=
  match service.limit with
  | some limit => limit ≤ service.clients
  | none => false

/-- A client counted, and a number taken for its session. -/
def enter (service : Service) : Service :=
  { service with clients := service.clients + 1, nextId := service.nextId + 1 }

/-- A slot freed. -/
def leave (service : Service) : Service := { service with clients := service.clients - 1 }

/-- An entry for a session in the register. -/
def register (id : Nat) (service : Service) : Service :=
  { service with registry := service.registry ++ [id] }

/-- The entry of a session gone from the register. -/
def unregister (id : Nat) (service : Service) : Service :=
  { service with registry := service.registry.filter (· ≠ id) }

/-- A client that comes, and what may stand in its way: the number of its session, if there is
one. -/
def letIn (peer : Endpoint) (obstacle : Option Obstacle) (service : Service) :
    Service × Option Nat × List ServiceNotice :=
  let id := service.nextId
  let clients := service.clients + 1
  if service.stopping then (service, none, [])
  else if service.isFull then (service, none, [.refused peer (service.limit.getD 0)])
  else
    match obstacle with
    | some (.socket reason) => (service, none, [.letGo id peer (.socket reason)])
    | some (.handle reason) => (service.enter.leave, none, [.letGo id peer (.handle reason)])
    | some (.codec reason) => (service.enter.leave, none, [.letGo id peer (.codec reason)])
    | some (.thread reason) =>
      (((service.enter.register id).leave).unregister id, none,
        [.connected id peer clients, .letGo id peer (.thread reason)])
    | none =>
      let service := service.enter.register id
      ({ service with connections := service.connections ++ [.start id peer] }, some id,
        [.connected id peer clients])

/-- A client that comes, with nothing in its way. -/
def connect (peer : Endpoint) (service : Service) : Service × Option Nat × List ServiceNotice :=
  service.letIn peer none

/-- The connection of a session. -/
def find? (id : Nat) (service : Service) : Option Connection :=
  service.connections.find? fun connection => connection.session.id = id

/-- The service with the connection of a session changed. -/
def update (id : Nat) (change : Connection → Connection) (service : Service) : Service :=
  { service with
    connections := service.connections.map fun connection =>
      if connection.session.id = id then change connection else connection }

/-- Bytes that arrive from a client. -/
def receive (id : Nat) (bytes : List UInt8) (service : Service) : Service :=
  service.update id (·.receive bytes)

/-- A client from which no more bytes come, because of an error if there is one. -/
def cutOff (id : Nat) (error : Option TransportError) (service : Service) : Service :=
  service.update id (·.cutOff error)

/-- A client from which no more bytes come, because it left or stopped sending. -/
def finishInput (id : Nat) (service : Service) : Service := service.cutOff id none

/-- What became of a session. -/
structure Progress where
  /-- The service afterwards. -/
  service : Service
  /-- Bytes for the client. -/
  sent : List UInt8
  /-- Why the session ended, if it did. -/
  finish : Option SessionEnd
  /-- What there is to tell. -/
  notices : List ServiceNotice

/-- One turn of a session, if there is such a session and it can go on, with the way that its
replies take. -/
def advance (sink : Sink) (id : Nat) (service : Service) : Progress :=
  match service.find? id with
  | none => ⟨service, [], none, []⟩
  | some connection =>
    if connection.isReady then
      let turn := { connection.session with sink := sink }.turn service.plant
      ⟨{ service with plant := turn.plant }.update id (·.afterTurn turn),
        turn.session.sink.taken, turn.finish, turn.notices.map ServiceNotice.plant⟩
    else ⟨service, [], none, []⟩

/-- One step of wrapping up a session that has ended: first its entry goes, then its slot is
free. -/
def retire (id : Nat) (service : Service) : Service × List ServiceNotice :=
  match service.find? id with
  | some ⟨_, _, .ended finish⟩ =>
    ((service.update id fun connection =>
      { connection with stage := .unregistered finish }).unregister
      id, [])
  | some ⟨session, _, .unregistered finish⟩ =>
    let service := service.leave
    ({ service with
        connections := service.connections.filter fun connection => connection.session.id ≠ id },
      [.disconnected id session.peer session.served service.clients finish])
  | _ => (service, [])

/-- One turn of a session, and its end wrapped up if it has ended. -/
def turn (id : Nat) (service : Service) : Progress :=
  let progress := service.advance {} id
  let (service, first) := progress.service.retire id
  let (service, second) := service.retire id
  { progress with service := service, notices := progress.notices ++ first ++ second }

/-- Up to `turns` turns of a session, as long as it can go on. -/
def turns (id : Nat) : (turns : Nat) → Service → Progress
  | 0, service => ⟨service, [], none, []⟩
  | more + 1, service =>
    let first := service.turn id
    match first.finish with
    | some _ => first
    | none =>
      let later := turns id more first.service
      { later with sent := first.sent ++ later.sent, notices := first.notices ++ later.notices }

/-- All the turns that the bytes of a session allow: each but the last takes some of them. -/
def settle (id : Nat) (service : Service) : Progress :=
  let bytes := (service.find? id).elim 0 fun connection => connection.session.source.bytes.length
  service.turns id (bytes + 1)

/-- One step of the timer. -/
def tick (service : Service) : Service × List ServiceNotice :=
  let (timer, plant, notices) := service.timer.step service.plant
  ({ service with timer := timer, plant := plant }, notices.map .plant)

/-- The service asked to stop: no more clients come in, every session can see it, and the
connections of those that the service reaches are closed. -/
def stop (service : Service) : Service × List ServiceNotice :=
  ({ service with
      stopping := true
      connections := service.connections.map fun connection =>
        if connection.session.id ∈ service.registry then connection.ask.cutOff none
        else connection.ask },
    [.closing service.registry.length])

/-- One turn of each of some sessions, one after the other. -/
def turnEach : (ids : List Nat) → Service → Service × List ServiceNotice
  | [], service => (service, [])
  | id :: rest, service =>
    let progress := service.turn id
    let (last, notices) := turnEach rest progress.service
    (last, progress.notices ++ notices)

/-- The service asked to stop and all its sessions ended. -/
def shutDown (service : Service) : Service × List ServiceNotice :=
  let (stopped, closing) := service.stop
  let (last, notices) := stopped.turnEach (stopped.connections.map (·.session.id))
  (last, closing ++ notices)

end Service

end HeatingPlant
