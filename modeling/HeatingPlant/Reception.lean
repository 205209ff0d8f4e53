import HeatingPlant.Service

/-!
# A service and its clients

Everything that can happen to a service while it runs, with the record of who came and who left.

## Main definitions

* `Encounter` — a client that comes, sends or leaves, a turn or the end of a session, a step of
  the timer
* `Service.meet` — the service after an encounter
* `Reception` — a service, the sessions that it let in and its journal
* `Reception.after`, `Reception.run` — the reception after one encounter, and after many
* `Reception.departed` — the sessions that were told to be gone
* `Reception.shutDown` — the reception once its service has stopped

## Design notes

The steps of wrapping up a session are encounters of their own, so that clients come and go
between them.  So is each turn, with whatever way its replies take: a session may end on its peer,
on a fault of its source or of its sink, or on a failed backend.
-/

namespace HeatingPlant

open Modbus

/-- What can happen to a service while it runs. -/
inductive Encounter where
  /-- A client comes, and something may stand in its way. -/
  | arrive (peer : Endpoint) (obstacle : Option Obstacle)
  /-- Bytes arrive for a session. -/
  | receive (id : Nat) (bytes : List UInt8)
  /-- No more bytes will arrive for a session, because of an error if there is one. -/
  | cutOff (id : Nat) (error : Option TransportError)
  /-- A session takes a turn, its reply going to the given sink. -/
  | turn (id : Nat) (sink : Sink)
  /-- The end of a session is wrapped up by one step. -/
  | retire (id : Nat)
  /-- A step of the timer. -/
  | tick

/-- The service after an encounter, with the number of the session that it let in, if it did, and
with what there is to tell. -/
def Service.meet (service : Service) : Encounter → Service × Option Nat × List ServiceNotice
  | .arrive peer obstacle => service.letIn peer obstacle
  | .receive id bytes => (service.receive id bytes, none, [])
  | .cutOff id error => (service.cutOff id error, none, [])
  | .turn id sink => ((service.advance sink id).service, none, (service.advance sink id).notices)
  | .retire id => ((service.retire id).1, none, (service.retire id).2)
  | .tick => (service.tick.1, none, service.tick.2)

/-- The session that a notice tells to be gone. -/
def ServiceNotice.departed? : ServiceNotice → Option Nat
  | disconnected session .. => some session
  | _ => none

/-- A service, with what it did to its clients. -/
structure Reception where
  /-- The service. -/
  service : Service
  /-- The sessions that were let in, in order. -/
  admitted : List Nat
  /-- What was told so far. -/
  journal : List ServiceNotice

namespace Reception

/-- The reception at startup. -/
def start (settings : Settings) : Reception := ⟨.start settings, [], []⟩

/-- The sessions that are gone, in order. -/
def departed (reception : Reception) : List Nat :=
  reception.journal.filterMap ServiceNotice.departed?

/-- The reception after an encounter. -/
def after (reception : Reception) (encounter : Encounter) : Reception :=
  let (service, session, notices) := reception.service.meet encounter
  ⟨service, reception.admitted ++ session.toList, reception.journal ++ notices⟩

/-- The reception after a list of encounters. -/
def run (reception : Reception) (encounters : List Encounter) : Reception :=
  encounters.foldl after reception

@[simp] theorem run_nil (reception : Reception) : reception.run [] = reception := rfl

@[simp] theorem run_cons (reception : Reception) (encounter : Encounter) (rest : List Encounter) :
    reception.run (encounter :: rest) = (reception.after encounter).run rest := rfl

/-- The reception once its service was asked to stop and all sessions ended. -/
def shutDown (reception : Reception) : Reception :=
  let (service, notices) := reception.service.shutDown
  ⟨service, reception.admitted, reception.journal ++ notices⟩

end Reception

end HeatingPlant
