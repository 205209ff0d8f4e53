import HeatingPlant.Modbus.Action
import HeatingPlant.Modbus.Fault

/-!
# Frames

A frame is a seven-byte header, whose length field covers the unit identifier and the data unit, and
the data unit itself.

## Main definitions

* `Header` — the fields of a header, with `Header.ofBytes?` and `Header.toBytes`
* `Header.bodyLength` — how many bytes follow a header, or the fault that it is
* `Request.ofFrame` — the request of a header and its data unit
* `Scan`, `scan` — what a byte string starts with

## Design notes

The declared length is judged before anything else in the header.  A length beyond the largest frame
is what brings the backend down, whatever the other fields say; only then come a length with no room
for a function code, and a protocol identifier other than zero.
-/

namespace HeatingPlant.Modbus

/-- Bytes of a header. -/
def headerLength : Nat := 7

/-- Bytes of the largest data unit. -/
def largestPdu : Nat := 253

/-- Smallest declared length of a legal frame: the unit identifier and a function code. -/
def smallestLength : Nat := 2

/-- The fields of a frame header. -/
structure Header where
  /-- Transaction identifier. -/
  transaction : UInt16
  /-- Protocol identifier, zero in a legal frame. -/
  protocol : UInt16
  /-- Bytes after the length field: the unit identifier and the data unit. -/
  length : UInt16
  /-- Unit identifier. -/
  unit : UInt8
  deriving DecidableEq, Repr

namespace Header

/-- The header that seven bytes spell. -/
def ofBytes? : List UInt8 → Option Header
  | [t1, t2, p1, p2, l1, l2, unit] =>
    some ⟨Word.ofBytes t1 t2, Word.ofBytes p1 p2, Word.ofBytes l1 l2, unit⟩
  | _ => none

/-- The seven bytes of a header. -/
def toBytes (header : Header) : List UInt8 :=
  Word.toBytes header.transaction ++ Word.toBytes header.protocol ++ Word.toBytes header.length ++
    [header.unit]

@[simp] theorem length_toBytes (header : Header) : header.toBytes.length = headerLength := rfl

@[simp] theorem ofBytes?_toBytes (header : Header) : ofBytes? header.toBytes = some header := by
  simp only [toBytes, Word.toBytes, List.cons_append, List.nil_append, ofBytes?,
    Word.ofBytes_toBytes]

/-- The number of bytes that follow the header, or the fault that the header is. -/
def bodyLength (header : Header) : Except Fault Nat :=
  if largestLength < header.length.toNat then .error (.backend header.length)
  else if header.length.toNat < smallestLength then
    .error (.malformed (.tooShort header.length))
  else if header.protocol ≠ 0 then .error (.malformed (.foreignProtocol header.protocol))
  else .ok (header.length.toNat - 1)

theorem bodyLength_eq_ok_iff {header : Header} {n : Nat} :
    header.bodyLength = .ok n ↔
      header.length.toNat = n + 1 ∧ 1 ≤ n ∧ n ≤ largestPdu ∧ header.protocol = 0 := by
  have hl : largestLength = 254 := rfl
  have hs : smallestLength = 2 := rfl
  have hp : largestPdu = 253 := rfl
  unfold bodyLength
  split
  · simp only [reduceCtorEq, false_iff, not_and]
    omega
  · split
    · simp only [reduceCtorEq, false_iff, not_and]
      omega
    · split
      · simp_all
      · rename_i h3
        simp only [ne_eq, Decidable.not_not] at h3
        simp only [Except.ok.injEq, h3, and_true]
        omega

end Header

/-- The request that a header and the data unit after it make; `none` if the data unit is empty. -/
def Request.ofFrame (header : Header) : List UInt8 → Option Request
  | function :: body =>
    some
      { transaction := header.transaction
        unit := header.unit
        action := Action.ofPdu function body
        wireLength := headerLength + (body.length + 1) }
  | [] => none

/-- What a byte string starts with. -/
inductive Scan where
  /-- Less than a header, or an acceptable header and less than its data unit. -/
  | incomplete
  /-- A whole frame, with the bytes after it. -/
  | request (request : Request) (rest : List UInt8)
  /-- A header that ends the connection, with the bytes after it. -/
  | fault (fault : Fault) (rest : List UInt8)
  deriving Repr

/-- What the bytes start with. -/
def scan (bytes : List UInt8) : Scan :=
  match Header.ofBytes? (bytes.take headerLength) with
  | none => .incomplete
  | some header =>
    let rest := bytes.drop headerLength
    match header.bodyLength with
    | .error fault => .fault fault rest
    | .ok n =>
      if rest.length < n then .incomplete
      else
        match Request.ofFrame header (rest.take n) with
        | some request => .request request (rest.drop n)
        | none => .incomplete

theorem length_of_ofBytes? {bytes : List UInt8} {header : Header}
    (h : Header.ofBytes? bytes = some header) : bytes.length = headerLength := by
  unfold Header.ofBytes? at h
  split at h
  · rfl
  · cases h

/-- A request that is read takes at least a header off the bytes. -/
theorem scan_request_lt {bytes rest : List UInt8} {request : Request}
    (h : scan bytes = .request request rest) : rest.length < bytes.length := by
  unfold scan at h
  split at h
  · cases h
  · rename_i header hheader
    have hlen := length_of_ofBytes? hheader
    have h7 : headerLength = 7 := rfl
    simp only [List.length_take] at hlen
    dsimp only at h
    split at h
    · cases h
    · split at h
      · cases h
      · split at h
        · cases h
          simp only [List.length_drop]
          omega
        · cases h

end HeatingPlant.Modbus
