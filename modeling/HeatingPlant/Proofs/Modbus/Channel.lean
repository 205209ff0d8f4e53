import HeatingPlant.Modbus.Source
import HeatingPlant.Modbus.Sink
import HeatingPlant.Proofs.Modbus.Framing

/-!
# Channels that work

How the bytes of a connection arrive and leave in pieces is the transport's business.  Over a
source that hands over something whenever there is something left, a request is decoded from what
the bytes start with, whatever the pieces and the interruptions; over a sink that never fails, a
frame is taken whole.

## Main definitions

* `Source.Flows`, `Sink.NeverFails` — the two conditions
* `Source.Past` — a source after some of its bytes
* `Sink.HasError` — an error that a sink can come with
* `Sink.Sends` — a sink takes some frames, one after the other

## Main statements

* `Source.readExact_of_flows`, `Source.decode_of_flows` — reading and decoding over a source that
  flows, whatever its pace
* `Sink.send_of_neverFails` — sending to a sink that never fails
* `Sink.send_cases` — sending to any sink
* `Sink.neverFails_iff` — a sink that never fails is one that takes every run of frames
-/

namespace HeatingPlant.Modbus

/-! ### Sources -/

namespace Source

variable {source next last : Source}

/-- Every attempt hands over something while anything is left, so that the stream ends where its
bytes do. -/
def Flows (source : Source) : Prop := ∀ attempt, 0 < source.pace.most attempt

/-- The source after `n` of its bytes were handed over. -/
structure Past (source : Source) (n : Nat) (next : Source) : Prop where
  bytes : next.bytes = source.bytes.drop n
  pace : next.pace = source.pace
  finish : next.finish = source.finish

theorem Past.refl (source : Source) : source.Past 0 source := ⟨rfl, rfl, rfl⟩

theorem Past.trans {m n : Nat} (h : source.Past m next) (h' : next.Past n last) :
    source.Past (m + n) last where
  bytes := by rw [h'.bytes, h.bytes, List.drop_drop]
  pace := h'.pace.trans h.pace
  finish := h'.finish.trans h.finish

theorem Past.flows {n : Nat} (h : source.Past n next) (hflows : source.Flows) : next.Flows := by
  intro attempt
  rw [h.pace]
  exact hflows attempt

theorem Past.finishFault {n : Nat} (h : source.Past n next) :
    next.finishFault = source.finishFault := by
  rw [Source.finishFault, Source.finishFault, h.finish]

theorem past_afterAttempt (source : Source) (n : Nat) : source.Past n (source.afterAttempt n) :=
  ⟨rfl, rfl, rfl⟩

theorem handedOver_pos (h : source.Flows) {wanted : Nat} (hwanted : wanted ≠ 0)
    (hbytes : ¬source.bytes.isEmpty = true) : source.handedOver wanted ≠ 0 := by
  have hmost := h source.attempts
  have hlength : 0 < source.bytes.length := by
    rw [List.length_pos_iff]
    rintro hempty
    exact hbytes (by rw [hempty]; rfl)
  rw [handedOver]
  omega

/-- **What is read exactly is what the source starts with, if that is enough**, and it is gone
either way. -/
theorem readExact_of_flows (h : source.Flows) (wanted : Nat) :
    (source.readExact wanted).1 =
        (if wanted ≤ source.bytes.length then .ok (source.bytes.take wanted)
        else .error source.finishFault) ∧
      source.Past wanted (source.readExact wanted).2 := by
  fun_induction readExact wanted source with
  | case1 source => exact ⟨rfl, .refl source⟩
  | case2 wanted source hw hi ih =>
      obtain ⟨hread, hpast⟩ := ih h
      exact ⟨hread, hpast.bytes, hpast.pace, hpast.finish⟩
  | case3 wanted source hw hi he =>
      have hempty : source.bytes = [] := List.isEmpty_iff.mp he
      refine ⟨?_, ?_, rfl, rfl⟩
      · rw [if_neg (by rw [hempty, List.length_nil]; omega)]
      · show source.bytes.drop 0 = source.bytes.drop wanted
        rw [hempty, List.drop_nil, List.drop_nil]
  | case4 wanted source hw hi he n hn => exact absurd hn (handedOver_pos h hw he)
  | case5 wanted source hw hi he n hn rest last heq ih =>
      -- what one attempt handed over, and what the others add to it
      have hpast := past_afterAttempt source n
      rw [heq] at ih
      obtain ⟨hread, hlater⟩ := ih (hpast.flows h)
      have hle : n ≤ wanted := Nat.min_le_left _ _
      have hlength : n ≤ source.bytes.length := by
        have : n ≤ min (source.pace.most source.attempts) source.bytes.length :=
          Nat.min_le_right _ _
        omega
      refine ⟨?_, Nat.add_sub_cancel' hle ▸ hpast.trans hlater⟩
      dsimp only at hread
      rw [hread, hpast.bytes, hpast.finishFault, List.length_drop]
      by_cases henough : wanted ≤ source.bytes.length
      · rw [if_pos henough, if_pos (by omega)]
        have htake := List.take_add (l := source.bytes) (i := n) (j := wanted - n)
        rw [Nat.add_sub_cancel' hle] at htake
        rw [htake]
        rfl
      · rw [if_neg henough, if_neg (by omega)]
        rfl

end Source

/-- What decoding answers to what the bytes start with, if `last` is the fault that comes after
them. -/
def Scan.answer (last : Fault) : Scan → Except Fault Request
  | incomplete => .error last
  | request found _ => .ok found
  | fault found _ => .error found

/-- What it leaves of them. -/
def Scan.rest : Scan → List UInt8
  | incomplete => []
  | request _ rest => rest
  | fault _ rest => rest

namespace Source

variable {source next last : Source}

/-- A read over a source that flows fails exactly if there are too few bytes. -/
theorem length_lt_of_readExact (h : source.Flows) {wanted : Nat} {fault : Fault}
    (hread : source.readExact wanted = (.error fault, next)) :
    source.bytes.length < wanted ∧ fault = source.finishFault ∧ source.Past wanted next := by
  obtain ⟨hresult, hpast⟩ := readExact_of_flows h wanted
  rw [hread] at hresult hpast
  by_cases henough : wanted ≤ source.bytes.length
  · rw [if_pos henough] at hresult
    cases hresult
  · rw [if_neg henough] at hresult
    exact ⟨Nat.lt_of_not_le henough, Except.error.inj hresult, hpast⟩

theorem le_length_of_readExact (h : source.Flows) {wanted : Nat} {bytes : List UInt8}
    (hread : source.readExact wanted = (.ok bytes, next)) :
    wanted ≤ source.bytes.length ∧ bytes = source.bytes.take wanted ∧
    source.Past wanted next := by
  obtain ⟨hresult, hpast⟩ := readExact_of_flows h wanted
  rw [hread] at hresult hpast
  by_cases henough : wanted ≤ source.bytes.length
  · rw [if_pos henough] at hresult
    exact ⟨henough, Except.ok.inj hresult, hpast⟩
  · rw [if_neg henough] at hresult
    cases hresult

/-- **Decoding finds what the bytes start with**, and leaves what comes after that. -/
theorem decode_of_flows (h : source.Flows) :
    source.decode.1 = (scan source.bytes).answer source.finishFault ∧
      (∃ n, source.Past n source.decode.2) ∧
      source.decode.2.bytes = (scan source.bytes).rest := by
  unfold decode
  split
  · rename_i fault later hread
    obtain ⟨hshort, rfl, hpast⟩ := length_lt_of_readExact h hread
    rw [scan_of_short hshort]
    exact ⟨rfl, ⟨_, hpast⟩,
      hpast.bytes.trans (List.drop_of_length_le (Nat.le_of_lt hshort))⟩
  · rename_i headerBytes later hread
    obtain ⟨hlength, rfl, hpast⟩ := le_length_of_readExact h hread
    unfold scan
    cases hheader : Header.ofBytes? (source.bytes.take headerLength) with
    | none =>
        have hnot := Header.ofBytes?_eq_none_iff.mp hheader
        rw [List.length_take, Nat.min_eq_left hlength] at hnot
        exact absurd rfl hnot
    | some header =>
        dsimp only
        cases hbody : header.bodyLength with
        | error fault => exact ⟨rfl, ⟨_, hpast⟩, hpast.bytes⟩
        | ok n =>
            dsimp only
            rw [← hpast.bytes]
            split
            · rename_i fault last hread
              obtain ⟨hshort, rfl, hlast⟩ := length_lt_of_readExact (hpast.flows h) hread
              rw [if_pos hshort, hpast.finishFault]
              exact ⟨rfl, ⟨_, hpast.trans hlast⟩,
                hlast.bytes.trans (List.drop_of_length_le (Nat.le_of_lt hshort))⟩
            · rename_i pdu last hread
              obtain ⟨henough, rfl, hlast⟩ := le_length_of_readExact (hpast.flows h) hread
              rw [if_neg (Nat.not_lt.mpr henough)]
              have hpdu : (later.bytes.take n).length = n := by
                rw [List.length_take, Nat.min_eq_left henough]
              -- an acceptable header announces a byte at least, so that a function code is there
              cases hbytes : later.bytes.take n with
              | nil =>
                  have hpos := (Header.bodyLength_eq_ok_iff.mp hbody).2.1
                  rw [hbytes, List.length_nil] at hpdu
                  omega
              | cons function body =>
                  exact ⟨rfl, ⟨_, hpast.trans hlast⟩, hlast.bytes⟩

end Source

namespace Sink

variable {sink next last : Sink} {bytes : List UInt8}

/-- Every write takes something, there is always room, and no flush fails. -/
structure NeverFails (sink : Sink) : Prop where
  most : sink.most ≠ some 0
  room : sink.room = none
  flush : sink.flush = none

theorem NeverFails.take (h : sink.NeverFails) (bytes : List UInt8) : (sink.take bytes).NeverFails :=
  ⟨h.most, by rw [Sink.take, h.room]; rfl, h.flush⟩

theorem accepts_ne_zero (hmost : sink.most ≠ some 0) (hroom : sink.room = none) {offered : Nat}
    (hoffered : offered ≠ 0) : sink.accepts offered ≠ 0 := by
  rw [accepts, hroom, Option.getD_none]
  cases hcase : sink.most with
  | none =>
      rw [Option.getD_none]
      omega
  | some most =>
      rw [hcase, ne_eq, Option.some.injEq] at hmost
      rw [Option.getD_some]
      omega

theorem take_nil (sink : Sink) : sink.take [] = sink := by
  obtain ⟨taken, most, room, full, flush, flushes⟩ := sink
  cases room <;> simp [take]

theorem take_take (sink : Sink) (first second : List UInt8) :
    (sink.take first).take second = sink.take (first ++ second) := by
  obtain ⟨taken, most, room, full, flush, flushes⟩ := sink
  cases room <;> simp [take, Nat.sub_add_eq]

/-- Where there is always room, all of the bytes are taken. -/
theorem writeAll_of_room_none (hmost : sink.most ≠ some 0) (hroom : sink.room = none)
    (bytes : List UInt8) : sink.writeAll bytes = (.ok (), sink.take bytes) := by
  fun_induction writeAll bytes sink with
  | case1 bytes sink hempty =>
      rw [List.isEmpty_iff.mp hempty, take_nil]
  | case2 bytes sink hempty n hn =>
      refine absurd hn (accepts_ne_zero hmost hroom fun hlength => hempty ?_)
      rw [List.length_eq_zero_iff.mp hlength]
      rfl
  | case3 bytes sink hempty n hn ih =>
      rw [ih hmost (by rw [take, hroom]; rfl), take_take, List.take_append_drop]

theorem NeverFails.flushed (h : sink.NeverFails) : sink.flushed = (none, sink) := by
  rw [Sink.flushed, h.flush]

/-- **A frame is taken whole.** -/
theorem send_of_neverFails (h : sink.NeverFails) (bytes : List UInt8) :
    sink.send bytes = (.ok bytes.length, sink.take bytes) := by
  rw [send, writeAll_of_room_none h.most h.room]
  dsimp only
  rw [(h.take bytes).flushed]

/-- **What a write of all of some bytes does**: the sink takes a part of them, which is all of them
unless the write fails. -/
theorem exists_take_of_writeAll (bytes : List UInt8) (sink : Sink) :
    ∃ part rest, bytes = part ++ rest ∧ (sink.writeAll bytes).2 = sink.take part ∧
      ((sink.writeAll bytes).1 = .ok () ∧ rest = [] ∨
        (sink.writeAll bytes).1 = .error sink.fullFault) := by
  fun_induction writeAll bytes sink with
  | case1 bytes sink hempty =>
      exact ⟨[], [], List.isEmpty_iff.mp hempty, (take_nil sink).symm, .inl ⟨rfl, rfl⟩⟩
  | case2 bytes sink hempty n hn => exact ⟨[], bytes, rfl, (take_nil sink).symm, .inr rfl⟩
  | case3 bytes sink hempty n hn ih =>
      obtain ⟨part, rest, hbytes, htaken, hresult⟩ := ih
      refine ⟨bytes.take n ++ part, rest, ?_, ?_, hresult⟩
      · rw [List.append_assoc, ← hbytes, List.take_append_drop]
      · rw [htaken, take_take]

/-- **A flush goes through or fails with the sink's own error**; what was taken stays. -/
theorem flushed_cases (sink : Sink) :
    (∃ flushes, sink.flushed = (none, { sink with flushes := flushes }) ∧
      (sink.flush ≠ none → flushes < sink.flushes)) ∨
    ∃ error, sink.flush = some error ∧ sink.flushed = (some error, sink) := by
  unfold flushed
  split
  · rename_i hnever
    exact .inl ⟨sink.flushes, rfl, fun hflush => absurd hnever hflush⟩
  · rename_i error hflush
    by_cases hlast : sink.flushes = 0
    · exact .inr ⟨error, hflush, if_pos hlast⟩
    · exact .inl ⟨sink.flushes - 1, if_neg hlast, fun _ => by omega⟩

/-- What does not fit is not taken whole. -/
theorem writeAll_of_room_lt (bytes : List UInt8) (sink : Sink) : ∀ room, sink.room = some room →
    room < bytes.length → ∃ fault, (sink.writeAll bytes).1 = .error fault := by
  fun_induction writeAll bytes sink with
  | case1 bytes sink hempty =>
      intro room _ hroom
      rw [List.isEmpty_iff.mp hempty] at hroom
      cases hroom
  | case2 bytes sink hempty n hn => exact fun _ _ _ => ⟨_, rfl⟩
  | case3 bytes sink hempty n hn ih =>
      intro room h hroom
      have hle : n ≤ bytes.length := Nat.min_le_left _ _
      have hfits : n ≤ room := by
        simp only [n, accepts, h, Option.getD_some]
        omega
      have hleft : (sink.take (bytes.take n)).room = some (room - n) := by
        rw [take, h, List.length_take, Nat.min_eq_left hle]
        rfl
      refine ih (room - n) hleft ?_
      rw [List.length_drop]
      omega

/-- An error that the sink can come with. -/
def HasError (sink : Sink) (error : TransportError) : Prop :=
  error = sink.fullError ∨ sink.flush = some error

/-- **What sending a frame does**: it is taken whole and flushed, or a part of it is taken and one
of the sink's errors comes. -/
theorem send_cases (bytes : List UInt8) (sink : Sink) :
    (∃ flushes, sink.writeAll bytes = (.ok (), sink.take bytes) ∧
      sink.send bytes = (.ok bytes.length, { sink.take bytes with flushes := flushes }) ∧
      (sink.flush ≠ none → flushes < sink.flushes)) ∨
    ∃ error part, part <+: bytes ∧ sink.HasError error ∧
      sink.send bytes = (.error (.ofTransport error), sink.take part) := by
  obtain ⟨part, rest, hbytes, htaken, hresult⟩ := exists_take_of_writeAll bytes sink
  have hwrite : sink.writeAll bytes = ((sink.writeAll bytes).1, sink.take part) := by
    rw [← htaken]
  obtain ⟨hwhole, rfl⟩ | hfull := hresult
  · rw [List.append_nil] at hbytes
    subst hbytes
    rw [hwhole] at hwrite
    obtain ⟨flushes, hflushed, hfewer⟩ | ⟨error, hflush, hflushed⟩ :=
      flushed_cases (sink.take bytes)
    · exact .inl ⟨flushes, hwrite, by rw [send, hwrite]; dsimp only; rw [hflushed], hfewer⟩
    · exact .inr ⟨error, bytes, List.prefix_rfl, .inr hflush,
        by rw [send, hwrite]; dsimp only; rw [hflushed]⟩
  · rw [hfull] at hwrite
    exact .inr ⟨sink.fullError, part, ⟨rest, hbytes.symm⟩, .inl rfl,
      by rw [send, hwrite]; rfl⟩

/-- A frame that was sent was taken whole, and flushed. -/
theorem exists_of_send_ok {n : Nat} (h : sink.send bytes = (.ok n, next)) :
    sink.writeAll bytes = (.ok (), sink.take bytes) ∧
      ∃ flushes, next = { sink.take bytes with flushes := flushes } ∧
        (sink.flush ≠ none → flushes < sink.flushes) := by
  obtain ⟨flushes, hwrite, hsend, hfewer⟩ | ⟨error, part, -, -, hsend⟩ :=
    send_cases bytes sink
  · rw [hsend] at h
    exact ⟨hwrite, flushes, (Prod.mk.inj h).2.symm, hfewer⟩
  · rw [hsend] at h
    cases h

/-- What was sent is as long as what was to be sent. -/
theorem length_of_send_ok {n : Nat} (h : sink.send bytes = (.ok n, next)) : n = bytes.length := by
  obtain ⟨flushes, -, hsend, -⟩ | ⟨error, part, -, -, hsend⟩ := send_cases bytes sink
  · rw [hsend] at h
    exact (Except.ok.inj (Prod.mk.inj h).1).symm
  · rw [hsend] at h
    cases h

/-- A frame that was not sent was taken in part, and one of the sink's errors came. -/
theorem exists_of_send_error {fault : Fault} (h : sink.send bytes = (.error fault, next)) :
    ∃ error part, part <+: bytes ∧ sink.HasError error ∧ fault = .ofTransport error ∧
      next = sink.take part := by
  obtain ⟨flushes, -, hsend, -⟩ | ⟨error, part, hpart, herror, hsend⟩ :=
    send_cases bytes sink
  · rw [hsend] at h
    cases h
  · rw [hsend] at h
    cases h
    exact ⟨error, part, hpart, herror, rfl, rfl⟩

/-- Sending leaves the errors what they were. -/
theorem hasError_of_send_ok {n : Nat} (h : sink.send bytes = (.ok n, next))
    (error : TransportError) : next.HasError error ↔ sink.HasError error := by
  obtain ⟨-, flushes, rfl, -⟩ := exists_of_send_ok h
  rfl

/-! ### Runs of frames -/

/-- The sink takes some frames whole, one after the other, and comes to `last`. -/
inductive Sends : Sink → List (List UInt8) → Sink → Prop
  | nil (sink : Sink) : Sends sink [] sink
  | cons {sink next last : Sink} {frame : List UInt8} {frames : List (List UInt8)} {n : Nat}
      (first : sink.send frame = (.ok n, next)) (later : Sends next frames last) :
      Sends sink (frame :: frames) last

theorem NeverFails.sends (h : sink.NeverFails) (frames : List (List UInt8)) :
    ∃ last, sink.Sends frames last := by
  induction frames generalizing sink with
  | nil => exact ⟨sink, .nil sink⟩
  | cons frame frames ih =>
      obtain ⟨last, hlater⟩ := ih (h.take frame)
      exact ⟨last, .cons (send_of_neverFails h frame) hlater⟩

theorem Sends.neverFails {frames : List (List UInt8)} (h : sink.Sends frames last)
    (hsink : sink.NeverFails) : last.NeverFails := by
  induction h with
  | nil sink => exact hsink
  | cons first later ih =>
      rw [send_of_neverFails hsink] at first
      cases first
      exact ih (hsink.take _)

/-- A sink whose flushes fail takes no more frames than they allow. -/
theorem Sends.length_le {frames : List (List UInt8)} (h : sink.Sends frames last)
    (hflush : sink.flush ≠ none) : frames.length ≤ sink.flushes := by
  induction h with
  | nil sink => exact Nat.zero_le _
  | cons first later ih =>
      obtain ⟨-, flushes, rfl, hfewer⟩ := exists_of_send_ok first
      exact Nat.succ_le_of_lt (Nat.lt_of_le_of_lt (ih hflush) (hfewer hflush))

/-- The sink took these frames, and nothing else. -/
theorem Sends.taken {frames : List (List UInt8)} (h : sink.Sends frames last) :
    last.taken = sink.taken ++ frames.flatten := by
  induction h with
  | nil sink => exact (List.append_nil _).symm
  | cons first later ih =>
      obtain ⟨-, flushes, rfl, -⟩ := exists_of_send_ok first
      rw [ih, List.flatten_cons, ← List.append_assoc]
      rfl

/-- **A sink that never fails is one that takes every run of frames.** -/
theorem neverFails_iff : sink.NeverFails ↔ ∀ frames, ∃ last, sink.Sends frames last := by
  constructor
  · exact NeverFails.sends
  · intro h
    have hwhole : ∀ bytes, (sink.writeAll bytes).1 = .ok () := by
      intro bytes
      obtain ⟨last, hsends⟩ := h [bytes]
      cases hsends with
      | cons first later => rw [(exists_of_send_ok first).1]
    refine ⟨fun hmost => ?_, ?_, ?_⟩
    · have hwritten := hwhole [0]
      have hnothing : sink.accepts 1 = 0 := by
        rw [accepts, hmost, Option.getD_some]
        omega
      rw [writeAll] at hwritten
      simp only [List.isEmpty_cons, List.length_singleton, hnothing] at hwritten
      cases hwritten
    · cases hroom : sink.room with
      | none => rfl
      | some room =>
          have hlength : room < (List.replicate (room + 1) (0 : UInt8)).length := by
            rw [List.length_replicate]
            exact Nat.lt_succ_self room
          obtain ⟨fault, hfault⟩ := writeAll_of_room_lt _ sink room hroom hlength
          rw [hwhole] at hfault
          cases hfault
    · cases hflush : sink.flush with
      | none => rfl
      | some error =>
          obtain ⟨last, hsends⟩ := h (List.replicate (sink.flushes + 1) [])
          have hle := hsends.length_le (by rw [hflush]; exact Option.some_ne_none error)
          rw [List.length_replicate] at hle
          exact absurd hle (Nat.not_succ_le_self _)

end Sink

end HeatingPlant.Modbus
