import HeatingPlant.Modbus.Source
import HeatingPlant.Modbus.Sink
import HeatingPlant.Journal.Notice

/-!
# Client sessions

One connection and the plant it talks to: read a request, serve it, reply, until something ends it.

## Main definitions

* `Shutdown` — when, in the course of a session, the service is asked to stop
* `Session` — a connection: who it is, where its bytes come from and go to
* `Session.turn` — one pass of the request loop
* `Session.run` — the loop
* `serve` — what a request does to the plant, and the snapshot its reply is built from

## Design notes

A turn touches the plant at most once, so that turns of several sessions and steps of the timer may
be interleaved in any order.  The snapshot of a reply is taken after the request's own write.
Whether the service is asked to stop is looked at before a request is read and again when a fault
is handled; a failed backend crashes the controller even then.
-/

namespace HeatingPlant

open Modbus

/-- The three parts of a turn of the request loop, in order. -/
inductive Phase where
  /-- About to look whether the service stops. -/
  | polling
  /-- Waiting for a request. -/
  | reading
  /-- Serving the request and replying. -/
  | replying
  deriving DecidableEq, Repr

/-- Position of a phase within its turn. -/
def Phase.position : Phase → Nat
  | polling => 0
  | reading => 1
  | replying => 2

/-- When, in the course of a session, the service is asked to stop. -/
inductive Shutdown where
  /-- Not while the session lasts. -/
  | never
  /-- In the given phase of the turn after that many served requests. -/
  | during (served : Nat) (phase : Phase)
  /-- When the source is asked for more than it has. -/
  | whenDrained
  deriving DecidableEq, Repr

/-- Whether the request to stop is there at the end of the given phase of the turn after `served`
requests. -/
def Shutdown.raised (shutdown : Shutdown) (served : Nat) (phase : Phase) (drained : Bool) : Bool :=
  match shutdown with
  | never => false
  | during turn start => turn < served || turn = served && start.position ≤ phase.position
  | whenDrained => drained

/-- Why a session ended. -/
inductive SessionEnd where
  /-- The peer is gone. -/
  | peerClosed
  /-- The service stops. -/
  | shutdown
  /-- A fault that only this connection suffers from. -/
  | fault (fault : Fault)
  /-- The protocol backend failed and took the controller down. -/
  | backendCrash
  deriving DecidableEq, Repr

/-- What a request does to the plant, and the register snapshot that its reply is built from. -/
def serve (s : State) (action : Action) : State × Registers :=
  let next :=
    match action.written with
    | some (start, values) => s.writeBlock start values
    | none => s
  (next, next.registers)

/-- A connection and its peer. -/
structure Session where
  /-- Number of the session within the service. -/
  id : Nat
  /-- Where the peer is. -/
  peer : Endpoint
  /-- Where requests come from. -/
  source : Source
  /-- Where replies go to. -/
  sink : Sink
  /-- When the service is asked to stop. -/
  shutdown : Shutdown
  /-- Requests served so far. -/
  served : Nat := 0

namespace Session

/-- What one turn of the request loop came to. -/
structure Turn where
  /-- Why the session ended, if it did. -/
  finish : Option SessionEnd
  /-- The session afterwards. -/
  session : Session
  /-- The plant afterwards. -/
  plant : State
  /-- What there is to tell. -/
  notices : List Notice

/-- The end of a session on a fault that came up in the given phase. -/
def terminate (session : Session) (plant : State) (phase : Phase) (fault : Fault) : Turn :=
  if fault.isBackendFailure then
    let (plant, _, notices) := plant.reportCrash fault.message
    ⟨some .backendCrash, session, plant,
      .backendFailed session.id session.peer fault :: notices⟩
  else if session.shutdown.raised session.served phase session.source.drained then
    ⟨some .shutdown, session, plant, []⟩
  else if fault = .closed then ⟨some .peerClosed, session, plant, []⟩
  else ⟨some (.fault fault), session, plant, [.dropped session.id session.peer fault]⟩

/-- A request served and answered. -/
def answer (session : Session) (plant : State) (request : Request) : Turn :=
  let (plant, registers) := serve plant request.action
  let received : Notice := .received session.id request.wireLength
  match session.sink.send (request.reply registers) with
  | (.ok bytes, sink) =>
    ⟨none, { session with sink := sink, served := session.served + 1 }, plant,
      [received, .sent session.id bytes]⟩
  | (.error fault, sink) =>
    let last := terminate { session with sink := sink } plant .replying fault
    { last with notices := received :: last.notices }

/-- One turn of the request loop. -/
def turn (session : Session) (plant : State) : Turn :=
  if session.shutdown.raised session.served .polling session.source.drained then
    ⟨some .shutdown, session, plant, []⟩
  else
    let session' := { session with source := session.source.decode.2 }
    match session.source.decode.1 with
    | .error fault => session'.terminate plant .reading fault
    | .ok request => session'.answer plant request

theorem finish_terminate (session : Session) (plant : State) (phase : Phase) (fault : Fault) :
    (session.terminate plant phase fault).finish ≠ none := by
  unfold terminate
  split
  · simp
  · split
    · simp
    · split <;> simp

/-- A turn that does not end the session has taken bytes off its source. -/
theorem turn_lt {session : Session} {plant : State}
    (h : (session.turn plant).finish = none) :
    (session.turn plant).session.source.bytes.length < session.source.bytes.length := by
  unfold turn at h ⊢
  split
  · simp_all
  · rename_i hstop
    simp only [hstop, Bool.false_eq_true, if_false] at h
    split
    · rename_i fault hfault
      simp only [hfault] at h
      exact absurd h (finish_terminate _ _ _ _)
    · rename_i request hrequest
      simp only [hrequest] at h
      have hlt := Source.decode_lt session.source (by intro f hf; rw [hrequest] at hf; cases hf)
      unfold answer at h ⊢
      simp only at h ⊢
      split
      · exact hlt
      · rename_i fault sink hsend
        simp only [hsend] at h
        exact absurd h (finish_terminate _ _ _ _)

/-- What a whole session came to. -/
structure Outcome where
  /-- Why the session ended. -/
  finish : SessionEnd
  /-- The session afterwards. -/
  session : Session
  /-- The plant afterwards. -/
  plant : State
  /-- What there is to tell. -/
  notices : List Notice

/-- The request loop, up to the end of the session. -/
def run (session : Session) (plant : State) : Outcome :=
  match _h : session.turn plant with
  | ⟨some finish, last, plant', notices⟩ => ⟨finish, last, plant', notices⟩
  | ⟨none, next, plant', notices⟩ =>
    let later := run next plant'
    { later with notices := notices ++ later.notices }
termination_by session.source.bytes.length
decreasing_by
  have hlt := @turn_lt session plant (by rw [_h])
  rw [_h] at hlt
  exact hlt

end Session

end HeatingPlant
