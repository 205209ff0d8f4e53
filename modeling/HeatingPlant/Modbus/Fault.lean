import HeatingPlant.Number.Hex

/-!
# Faults of a connection

Why a connection cannot go on: the peer left, a frame was malformed, the protocol backend failed, or
the transport did.

## Main definitions

* `TransportError` — a failure that the byte stream reports
* `Fault` — what ends a connection
* `Fault.ofTransport` — the fault that a transport error amounts to
* `Fault.message` — its wording

## Design notes

The several ways in which a stream reports that the peer is gone are one fault.  Only a backend
failure takes the controller down, and it arises from a declared length that no legal frame has.
-/

namespace HeatingPlant.Modbus

/-- Kinds of failure that a byte stream reports. -/
inductive TransportKind where
  | unexpectedEof
  | connectionReset
  | connectionAborted
  | connectionRefused
  | brokenPipe
  | notConnected
  | permissionDenied
  | timedOut
  | wouldBlock
  | writeZero
  | other
  deriving DecidableEq, Repr

namespace TransportKind

/-- Whether a failure of this kind means that the peer is gone. -/
def isDisconnect : TransportKind → Bool
  | unexpectedEof | connectionReset | connectionAborted | brokenPipe | notConnected => true
  | _ => false

/-- The wording of a failure that brings none of its own. -/
def description : TransportKind → String
  | unexpectedEof => "unexpected end of file"
  | connectionReset => "connection reset"
  | connectionAborted => "connection aborted"
  | connectionRefused => "connection refused"
  | brokenPipe => "broken pipe"
  | notConnected => "not connected"
  | permissionDenied => "permission denied"
  | timedOut => "timed out"
  | wouldBlock => "operation would block"
  | writeZero => "write zero"
  | other => "other error"

end TransportKind

/-- A failure of the byte stream, with its own wording if it brings one. -/
structure TransportError where
  /-- What kind of failure it is. -/
  kind : TransportKind
  /-- Its own wording. -/
  text : Option String := none
  deriving DecidableEq, Repr

/-- The wording of a transport error. -/
def TransportError.message (e : TransportError) : String :=
  e.text.getD e.kind.description

/-- What is wrong with a frame header that no backend would fail on. -/
inductive HeaderDefect where
  /-- The declared length leaves no room for a function code. -/
  | tooShort (length : UInt16)
  /-- The frame belongs to another protocol. -/
  | foreignProtocol (protocol : UInt16)
  deriving DecidableEq, Repr

/-- The wording of a header defect. -/
def HeaderDefect.message : HeaderDefect → String
  | tooShort length => s!"MBAP length {length.toNat} too short"
  | foreignProtocol protocol => s!"unexpected protocol id 0x{Hex.word protocol}"

/-- Largest declared length of a legal frame: the unit identifier and the largest data unit. -/
def largestLength : Nat := 254

/-- What ends a connection. -/
inductive Fault where
  /-- The peer is gone. -/
  | closed
  /-- A frame could not be read; only this connection suffers. -/
  | malformed (defect : HeaderDefect)
  /-- The protocol backend failed on a declared length beyond the largest frame. -/
  | backend (length : UInt16)
  /-- The transport failed in any other way. -/
  | transport (error : TransportError)
  deriving DecidableEq, Repr

namespace Fault

/-- The fault that a transport error amounts to. -/
def ofTransport (error : TransportError) : Fault :=
  if error.kind.isDisconnect then closed else transport error

/-- Whether the fault takes the controller down. -/
def isBackendFailure : Fault → Bool
  | backend _ => true
  | _ => false

/-- Whether nothing more can come after the fault. -/
def endsStream : Fault → Bool
  | closed | transport _ => true
  | _ => false

/-- The wording of a fault. -/
def message : Fault → String
  | closed => "connection closed by peer"
  | malformed defect => "malformed frame: " ++ defect.message
  | backend length =>
    "protocol backend failure: " ++
      s!"MBAP length {length.toNat} exceeds maximum ADU ({largestLength})"
  | transport error => "transport error: " ++ error.message

@[simp] theorem isBackendFailure_ofTransport (error : TransportError) :
    (ofTransport error).isBackendFailure = false := by
  unfold ofTransport; split <;> rfl

@[simp] theorem endsStream_ofTransport (error : TransportError) :
    (ofTransport error).endsStream = true := by
  unfold ofTransport; split <;> rfl

end Fault

end HeatingPlant.Modbus
