import HeatingPlant.Journal.ServiceNotice

/-!
# Connections of the service

A session of the service: its bytes arrive little by little, and its end takes a while to be
wrapped up.

## Main definitions

* `Stage` — how far a session has come
* `Connection` — a session whose bytes are still arriving
* `Connection.receive`, `Connection.cutOff` — what arrives from the client
* `Connection.isReady`, `Connection.afterTurn` — when the session can go on, and where it is then

## Design notes

A connection may take a turn once its bytes hold a whole frame, or a header that ends it, or no
more bytes can come.
-/

namespace HeatingPlant

open Modbus

/-- Largest frame on the wire. -/
def largestFrame : Nat := headerLength + largestPdu

/-- How far a session has come. -/
inductive Stage where
  /-- It takes turns. -/
  | serving
  /-- It has ended, and its entry in the register is still there. -/
  | ended (finish : SessionEnd)
  /-- It has ended and its entry is gone, but it still holds its slot. -/
  | unregistered (finish : SessionEnd)
  deriving DecidableEq, Repr

/-- Whether a session at this stage has its entry in the register. -/
def Stage.isRegistered : Stage → Bool
  | unregistered _ => false
  | _ => true

/-- A session whose bytes are still arriving. -/
structure Connection where
  /-- The session, with the bytes that have arrived and were not read yet. -/
  session : Session
  /-- Whether no more bytes can come. -/
  inputEnded : Bool
  /-- How far the session has come. -/
  stage : Stage

namespace Connection

/-- A new connection. -/
def start (id : Nat) (peer : Endpoint) : Connection where
  session :=
    { id := id
      peer := peer
      source := .ofBytes [] (.steady largestFrame) none
      sink := {}
      shutdown := .never }
  inputEnded := false
  stage := .serving

/-- The connection after more bytes have arrived; once its input has ended none do. -/
def receive (bytes : List UInt8) (connection : Connection) : Connection :=
  if connection.inputEnded then connection
  else
    let session := connection.session
    { connection with
      session :=
        { session with source := { session.source with bytes := session.source.bytes ++ bytes } } }

/-- The connection when no more bytes can come, because of an error if there is one; only the
first end of the input counts. -/
def cutOff (error : Option TransportError) (connection : Connection) : Connection :=
  if connection.inputEnded then connection
  else
    let session := connection.session
    { connection with
      session := { session with source := { session.source with finish := error } }
      inputEnded := true }

/-- The connection of a session that is asked to stop before its next turn. -/
def ask (connection : Connection) : Connection :=
  let session := connection.session
  { connection with session := { session with shutdown := .during session.served .polling } }

/-- Whether the session can go on with the bytes that it has. -/
def isReady (connection : Connection) : Bool :=
  connection.stage = .serving &&
    (connection.inputEnded ||
      match scan connection.session.source.bytes with
      | .incomplete => false
      | _ => true)

/-- The connection after a turn of its session. -/
def afterTurn (turn : Session.Turn) (connection : Connection) : Connection :=
  { connection with
    session := turn.session
    stage := turn.finish.elim .serving .ended }

end Connection

end HeatingPlant
