import HeatingPlant.Modbus.Frame

/-!
# Byte sources

Where a connection's bytes come from: in pieces of any size, with interruptions, and ending in the
end of the stream or in an error.

## Main definitions

* `Pace` — how the bytes arrive
* `Source` — the bytes to come, their pace and their end
* `Source.readExact` — exactly so many bytes, however they arrive
* `Source.decode` — the next request
* `Source.decodeAll` — request after request, up to the end of the stream

## Design notes

An interrupted attempt is repeated.  A pace says how often each successful attempt is interrupted
before it goes through, so that there are finitely many interruptions in a row by construction.
Bytes taken before the stream ends in the middle of a read are gone.  A source remembers whether it
was ever asked for more than it had, since that is when a peer's departure can be noticed.
-/

namespace HeatingPlant.Modbus

/-- How bytes arrive: for each successful attempt, how many interrupted ones come first and how many
bytes it hands over at most. -/
structure Pace where
  /-- Interrupted attempts before the successful attempt of that number. -/
  interruptions : Nat → Nat
  /-- Most bytes that the successful attempt of that number hands over. -/
  most : Nat → Nat

/-- All at once and never interrupted, for strings of at most `size` bytes. -/
def Pace.steady (size : Nat) : Pace := ⟨fun _ => 0, fun _ => size⟩

/-- The bytes still to come over a connection. -/
structure Source where
  /-- Bytes that were not handed over yet. -/
  bytes : List UInt8
  /-- How they arrive. -/
  pace : Pace
  /-- What comes after the last byte: an error, or the end of the stream. -/
  finish : Option TransportError
  /-- Number of successful attempts so far. -/
  attempts : Nat
  /-- Interrupted attempts left before the next successful one. -/
  interruptionsLeft : Nat
  /-- Whether an attempt was ever made with no bytes left. -/
  drained : Bool

namespace Source

/-- A source at its start. -/
def ofBytes (bytes : List UInt8) (pace : Pace) (finish : Option TransportError) : Source where
  bytes := bytes
  pace := pace
  finish := finish
  attempts := 0
  interruptionsLeft := pace.interruptions 0
  drained := false

/-- A source whose bytes lie ready in one piece and that ends with the end of the stream. -/
def ofString (bytes : List UInt8) : Source :=
  ofBytes bytes (.steady bytes.length) none

/-- The fault that the end of the source amounts to. -/
def finishFault (source : Source) : Fault :=
  match source.finish with
  | some error => .ofTransport error
  | none => .closed

/-- The source after a successful attempt that handed over `n` bytes. -/
def afterAttempt (source : Source) (n : Nat) : Source :=
  { source with
    bytes := source.bytes.drop n
    attempts := source.attempts + 1
    interruptionsLeft := source.pace.interruptions (source.attempts + 1)
    drained := source.drained || source.bytes.isEmpty }

/-- The number of bytes that the next successful attempt hands over, of `wanted`. -/
def handedOver (source : Source) (wanted : Nat) : Nat :=
  min wanted (min (source.pace.most source.attempts) source.bytes.length)

/-- Exactly `wanted` bytes, in as many attempts as it takes, or the fault that came before the last
of them.  An attempt that hands over nothing is the end of the stream. -/
def readExact (wanted : Nat) (source : Source) : Except Fault (List UInt8) × Source :=
  if wanted = 0 then (.ok [], source)
  else if 0 < source.interruptionsLeft then
    readExact wanted { source with interruptionsLeft := source.interruptionsLeft - 1 }
  else if source.bytes.isEmpty then (.error source.finishFault, source.afterAttempt 0)
  else
    let n := source.handedOver wanted
    if n = 0 then (.error .closed, source.afterAttempt 0)
    else
      let (rest, last) := readExact (wanted - n) (source.afterAttempt n)
      (rest.map (source.bytes.take n ++ ·), last)
termination_by (wanted, source.interruptionsLeft)
decreasing_by all_goals omega

/-- The next request, or the fault that stands in its place. -/
def decode (source : Source) : Except Fault Request × Source :=
  match source.readExact headerLength with
  | (.error fault, rest) => (.error fault, rest)
  | (.ok headerBytes, rest) =>
    match Header.ofBytes? headerBytes with
    | none => (.error .closed, rest)
    | some header =>
      match header.bodyLength with
      | .error fault => (.error fault, rest)
      | .ok n =>
        match rest.readExact n with
        | (.error fault, rest) => (.error fault, rest)
        | (.ok pdu, rest) =>
          match Request.ofFrame header pdu with
          | some request => (.ok request, rest)
          | none => (.error .closed, rest)

/-- Reading never adds bytes, and exactly what is read is taken away. -/
theorem readExact_length (wanted : Nat) (source : Source) :
    (source.readExact wanted).2.bytes.length ≤ source.bytes.length ∧
      ∀ bytes, (source.readExact wanted).1 = .ok bytes →
        bytes.length = wanted ∧
          (source.readExact wanted).2.bytes.length + wanted = source.bytes.length := by
  fun_induction readExact wanted source with
  | case1 source => simp
  | case2 wanted source hw hi ih => simpa using ih
  | case3 wanted source hw hi he => simp [afterAttempt]
  | case4 wanted source hw hi he n hn => simp [afterAttempt]
  | case5 wanted source hw hi he n hn rest last heq ih =>
    rw [heq] at ih
    have hle : n ≤ source.bytes.length := by
      simp only [n, handedOver]; omega
    have hnw : n ≤ wanted := by
      simp only [n, handedOver]; omega
    simp only [afterAttempt, List.length_drop] at ih
    refine ⟨?_, ?_⟩
    · show last.bytes.length ≤ source.bytes.length
      omega
    intro bytes hbytes
    cases rest with
    | error e => simp [Except.map] at hbytes
    | ok tail =>
      simp only [Except.map, Except.ok.injEq] at hbytes
      obtain ⟨h1, h2⟩ := ih.2 tail rfl
      subst hbytes
      simp only [List.length_append, List.length_take]
      exact ⟨by omega, by omega⟩

/-- A read that fails has come to the end of the stream. -/
theorem endsStream_of_readExact {wanted : Nat} {source : Source} {fault : Fault}
    (h : (source.readExact wanted).1 = .error fault) : fault.endsStream = true := by
  fun_induction readExact wanted source with
  | case1 source => cases h
  | case2 wanted source hw hi ih => exact ih h
  | case3 wanted source hw hi he =>
    cases h
    unfold finishFault
    split
    · exact Fault.endsStream_ofTransport _
    · rfl
  | case4 wanted source hw hi he n hn => cases h; rfl
  | case5 wanted source hw hi he n hn rest last heq ih =>
    rw [heq] at ih
    cases rest with
    | error e => cases h; exact ih rfl
    | ok tail => cases h

/-- What is decoded takes bytes off its source, unless the stream has come to its end. -/
theorem decode_lt (source : Source) (h : ∀ fault, source.decode.1 = .error fault →
    fault.endsStream = false) : source.decode.2.bytes.length < source.bytes.length := by
  have h7 : headerLength = 7 := rfl
  have hheader := readExact_length headerLength source
  have hheaderEnds := @endsStream_of_readExact headerLength source
  unfold decode at h ⊢
  split
  · rename_i fault rest heq
    rw [heq] at h hheaderEnds
    have := h fault rfl
    simp [hheaderEnds rfl] at this
  · rename_i headerBytes rest heq
    rw [heq] at h hheader
    have hh := (hheader.2 headerBytes rfl).2
    simp only at h hh
    split
    · rename_i hnone
      simp only [hnone] at h
      cases h .closed rfl
    · rename_i header hheader'
      simp only [hheader'] at h
      split
      · simp only
        omega
      · rename_i n hn
        have hbody := readExact_length n rest
        have hbodyEnds := @endsStream_of_readExact n rest
        simp only [hn] at h
        split
        · rename_i fault rest' heq'
          rw [heq'] at h hbodyEnds
          have := h fault rfl
          simp [hbodyEnds rfl] at this
        · rename_i pdu rest' heq'
          rw [heq'] at h hbody
          have hb := (hbody.2 pdu rfl).2
          simp only at h hb
          split
          · simp only
            omega
          · rename_i hnone
            simp only [hnone] at h
            cases h .closed rfl

/-- Request after request, also past a malformed frame and past a backend failure, up to and
including the fault that ends the stream. -/
def decodeAll (source : Source) : List (Except Fault Request) × Source :=
  match _h : source.decode with
  | (.error fault, rest) =>
    if _hend : fault.endsStream then ([.error fault], rest)
    else
      let (later, last) := decodeAll rest
      (.error fault :: later, last)
  | (.ok request, rest) =>
    let (later, last) := decodeAll rest
    (.ok request :: later, last)
termination_by source.bytes.length
decreasing_by
  · have hlt := decode_lt source (by rw [_h]; intro f hf; simp_all)
    rw [_h] at hlt
    exact hlt
  · have hlt := decode_lt source (by rw [_h]; intro f hf; cases hf)
    rw [_h] at hlt
    exact hlt

end Source

end HeatingPlant.Modbus
