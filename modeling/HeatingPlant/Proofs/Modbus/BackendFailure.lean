import HeatingPlant.Modbus.Source
import HeatingPlant.Modbus.Sink

/-!
# Where backend failures come from

A backend failure is a header that declares more than the largest frame.  This file shows that the
reader answers with one exactly there, and that nothing else in a connection does.

## Main statements

* `Source.readExact_eq_take` — what is read exactly is what the source starts with
* `Source.decode_eq_backend_iff` — decoding fails the backend exactly at a whole header whose
  length field is beyond the largest frame
* `Sink.isBackendFailure_send` — a reply that cannot be sent never does

## Design notes

The protocol identifier appears in no condition: the declared length is judged first.
-/

namespace HeatingPlant.Modbus

/-- A header is a backend failure exactly if it declares more than the largest frame. -/
theorem Header.bodyLength_eq_backend_iff {header : Header} {length : UInt16} :
    header.bodyLength = .error (.backend length) ↔
      header.length = length ∧ largestLength < header.length.toNat := by
  unfold bodyLength
  split
  · rename_i hlong
    simp [hlong]
  · rename_i hshort
    simp only [hshort, and_false, iff_false]
    split
    · simp
    · split <;> simp

/-- The end of a stream is no backend failure. -/
theorem Fault.ne_backend_of_endsStream {fault : Fault} (h : fault.endsStream = true)
    (length : UInt16) : fault ≠ .backend length := by
  rintro rfl
  cases h

namespace Source

/-- What is read exactly comes off the front. -/
theorem bytes_eq_of_readExact (wanted : Nat) (source : Source) :
    ∀ bytes, (source.readExact wanted).1 = .ok bytes →
      source.bytes = bytes ++ (source.readExact wanted).2.bytes := by
  fun_induction readExact wanted source with
  | case1 source =>
      rintro _ ⟨⟩
      rfl
  | case2 wanted source hw hi ih => exact ih
  | case3 wanted source hw hi he => simp
  | case4 wanted source hw hi he n hn => simp
  | case5 wanted source hw hi he n hn rest last heq ih =>
      rw [heq] at ih
      cases rest with
      | error fault => simp [Except.map]
      | ok tail =>
          -- what one attempt handed over, and what the others add to it
          have htail : source.bytes.drop n = tail ++ last.bytes := ih tail rfl
          rintro _ ⟨⟩
          rw [List.append_assoc, ← htail, List.take_append_drop]

/-- **What is read exactly is what the source starts with**, whatever the pace. -/
theorem readExact_eq_take (wanted : Nat) (source : Source) :
    ∀ bytes, (source.readExact wanted).1 = .ok bytes → bytes = source.bytes.take wanted := by
  intro bytes h
  have hlength := ((readExact_length wanted source).2 bytes h).1
  rw [bytes_eq_of_readExact wanted source bytes h, List.take_left' hlength]

/-- **Decoding fails the backend exactly at a whole header that declares more than the largest
frame.** -/
theorem decode_eq_backend_iff {source : Source} {length : UInt16} :
    source.decode.1 = .error (.backend length) ↔
      ∃ bytes header, (source.readExact headerLength).1 = .ok bytes ∧
        Header.ofBytes? bytes = some header ∧ header.length = length ∧
        largestLength < header.length.toNat := by
  have hends := @endsStream_of_readExact headerLength source
  unfold decode
  split
  · -- no whole header: the stream has come to its end
    rename_i fault rest heq
    rw [heq] at hends
    have hne := Fault.ne_backend_of_endsStream (hends rfl) length
    simp [heq, hne]
  · rename_i bytes rest heq
    simp only [heq, Except.ok.injEq]
    split
    · rename_i hnone
      simp [hnone]
    · rename_i header hheader
      have hiff := @Header.bodyLength_eq_backend_iff header length
      split
      · rename_i fault hfault
        rw [hfault, Except.error.injEq] at hiff
        simp only [Except.error.injEq]
        rw [hiff]
        exact ⟨fun h => ⟨bytes, header, rfl, hheader, h⟩, fun h => by
          obtain ⟨_, _, rfl, hheader', h⟩ := h
          rw [hheader] at hheader'
          cases hheader'
          exact h⟩
      · rename_i n hn
        -- an acceptable header is followed by a data unit, or by the end of the stream
        have hacceptable : ¬∃ bytes' header', bytes = bytes' ∧
          Header.ofBytes? bytes' = some header' ∧
            header'.length = length ∧ largestLength < header'.length.toNat := by
          rintro ⟨_, header', rfl, hheader', h⟩
          rw [hheader] at hheader'
          cases hheader'
          rw [hn] at hiff
          cases hiff.mpr h
        refine iff_of_false ?_ hacceptable
        split
        · rename_i fault rest' heq'
          have hends' := @endsStream_of_readExact n rest
          rw [heq'] at hends'
          intro h
          exact Fault.ne_backend_of_endsStream (hends' rfl) length (Except.error.inj h)
        · split <;> simp
end Source

namespace Sink

theorem isBackendFailure_writeAll {bytes : List UInt8} {sink : Sink} {fault : Fault}
    (h : (sink.writeAll bytes).1 = .error fault) : fault.isBackendFailure = false := by
  fun_induction writeAll bytes sink with
  | case1 bytes sink hempty => cases h
  | case2 bytes sink hempty n hn =>
      cases h
      exact Fault.isBackendFailure_ofTransport _
  | case3 bytes sink hempty n hn ih => exact ih h

/-- **A reply that cannot be sent is no backend failure.** -/
theorem isBackendFailure_send {bytes : List UInt8} {sink : Sink} {fault : Fault}
    (h : (sink.send bytes).1 = .error fault) : fault.isBackendFailure = false := by
  have hwrite := @isBackendFailure_writeAll bytes sink fault
  unfold send at h
  split at h
  · rename_i fault' last heq
    rw [heq] at hwrite
    exact hwrite (congrArg Except.error (Except.error.inj h))
  · split at h
    · cases h
      exact Fault.isBackendFailure_ofTransport _
    · cases h

end Sink

end HeatingPlant.Modbus
