import HeatingPlant.Modbus.Reply

/-!
# Byte sinks

Where a connection's replies go: in pieces of any size, up to a limit, with errors at the limit or
on a flush.

## Main definitions

* `Sink` — the bytes taken so far and what the sink will still do
* `Sink.writeAll` — all of a byte string, or the fault that cut it short
* `Sink.flushed` — a flush
* `Sink.send` — a frame, written and flushed

## Design notes

Nothing is written after the first error, so that a sink says where its first error comes, after so
many bytes or after so many flushes, and which one it is.
-/

namespace HeatingPlant.Modbus

/-- The receiving end of a connection's replies. -/
structure Sink where
  /-- Bytes taken so far. -/
  taken : List UInt8 := []
  /-- Most bytes that one write takes; `none` is any number. -/
  most : Option Nat := none
  /-- Bytes that still fit; `none` is any number. -/
  room : Option Nat := none
  /-- Error of a write that can take nothing; without one it takes no bytes and says so. -/
  full : Option TransportError := none
  /-- Error of a flush that fails; without one every flush goes through. -/
  flush : Option TransportError := none
  /-- Flushes that still go through before one fails. -/
  flushes : Nat := 0

namespace Sink

/-- The number of bytes that one write takes, of `offered`. -/
def accepts (sink : Sink) (offered : Nat) : Nat :=
  min offered (min (sink.most.getD offered) (sink.room.getD offered))

/-- The sink after a write took `bytes`. -/
def take (sink : Sink) (bytes : List UInt8) : Sink :=
  { sink with taken := sink.taken ++ bytes, room := sink.room.map (· - bytes.length) }

/-- The error of a write that can take nothing. -/
def fullError (sink : Sink) : TransportError :=
  sink.full.getD ⟨.writeZero, some "failed to write whole buffer"⟩

/-- The fault of a write that can take nothing. -/
def fullFault (sink : Sink) : Fault := .ofTransport sink.fullError

/-- All of `bytes`, in as many writes as it takes; the part that was taken stays taken. -/
def writeAll (bytes : List UInt8) (sink : Sink) : Except Fault Unit × Sink :=
  if bytes.isEmpty then (.ok (), sink)
  else
    let n := sink.accepts bytes.length
    if n = 0 then (.error sink.fullFault, sink)
    else writeAll (bytes.drop n) (sink.take (bytes.take n))
termination_by bytes.length
decreasing_by
  have : bytes ≠ [] := by simp_all
  have : 0 < bytes.length := List.length_pos_iff.mpr this
  simp only [List.length_drop]
  omega

/-- The error of a flush, if it fails, and the sink after it. -/
def flushed (sink : Sink) : Option TransportError × Sink :=
  match sink.flush with
  | none => (none, sink)
  | some error =>
    if sink.flushes = 0 then (some error, sink)
    else (none, { sink with flushes := sink.flushes - 1 })

/-- A frame written and flushed, with its length; a failed flush leaves it written. -/
def send (bytes : List UInt8) (sink : Sink) : Except Fault Nat × Sink :=
  match sink.writeAll bytes with
  | (.error fault, sink) => (.error fault, sink)
  | (.ok (), sink) =>
    match sink.flushed with
    | (some error, sink) => (.error (.ofTransport error), sink)
    | (none, sink) => (.ok bytes.length, sink)

end Sink

end HeatingPlant.Modbus
