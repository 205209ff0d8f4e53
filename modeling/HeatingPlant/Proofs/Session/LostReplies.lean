import HeatingPlant.Proofs.Facility.LastWriter
import HeatingPlant.Proofs.Session.Meaning

/-!
# Replies that are lost

A request is served before its reply is sent, and the reply may be cut short anywhere, by a write
or by a flush.  Then the session ends there: its client has all replies before that one, perhaps a
part of that one, and nothing after it, and the plant has seen the writes of just one request more
than were acknowledged.

## Main definitions

* `Source.requests` — the requests that a source comes to, up to the first fault
* `Outcome.Sent` — a session had so many of its replies taken whole, and decoded once more
* `Outcome.Completes`, `Outcome.LosesReply` — that last decode brought a fault, or a request whose
  reply was lost

## Main statements

* `Source.requests_of_framing` — the requests are those of the frames that the bytes start with
* `Session.turn_of_sent`, `Session.turn_of_lost`, `Session.turn_of_fault` — the three kinds of
  turn
* `Session.exists_sent` — every session that nobody stops completes, or loses one reply
* `Session.loses_one_reply_at_most` — the same, against a sink that never fails

## Design notes

Nothing is asked of the source or of the sink.  Replies are compared with what a sink that never
fails would take, since the replies after a lost one are never made.
-/

namespace HeatingPlant

open Modbus

/-! ### The requests of a source -/

namespace Modbus.Source

variable {source : Source} {request : Request} {fault : Fault}

/-- The requests that a source comes to, up to the first fault. -/
def requests (source : Source) : List Request :=
  match _h : source.decode with
  | (.error _, _) => []
  | (.ok request, rest) => request :: rest.requests
termination_by source.bytes.length
decreasing_by
  have hlt := decode_lt source (by rw [_h]; nofun)
  rw [_h] at hlt
  exact hlt

theorem requests_of_error (h : source.decode.1 = .error fault) : source.requests = [] := by
  rw [requests]
  split
  · rfl
  · rename_i heq
    rw [heq] at h
    cases h

theorem requests_of_ok (h : source.decode.1 = .ok request) :
    source.requests = request :: source.decode.2.requests := by
  rw [requests]
  split
  · rename_i heq
    rw [heq] at h
    cases h
  · rename_i heq
    rw [heq] at h ⊢
    cases h
    rfl

/-- **Over a source that flows, they are the requests of the frames that its bytes start with.** -/
theorem requests_of_framing {frames : List Frame} {tail : List UInt8} {ending : Ending}
    (h : source.Flows) (hframing : Framing source.bytes frames tail ending) :
    source.requests = frames.map Frame.request := by
  induction frames generalizing source with
  | nil =>
      obtain ⟨hdecode, -, -⟩ := decode_of_flows h
      have hbytes : source.bytes = tail := hframing.bytes_eq
      have hfound := hframing.stops.ending?_scan
      rw [← hbytes] at hfound
      cases hscan : scan source.bytes with
      | incomplete => exact requests_of_error (by rw [hdecode, hscan]; rfl)
      | request request rest =>
          rw [hscan] at hfound
          cases hfound
      | fault fault rest => exact requests_of_error (by rw [hdecode, hscan]; rfl)
  | cons f frames ih =>
      obtain ⟨hdecode, ⟨n, hpast⟩, hrest⟩ := decode_of_flows h
      have hbytes := hframing.bytes_eq
      rw [List.flatMap_cons, List.append_assoc] at hbytes
      rw [hbytes, f.scan_append] at hdecode hrest
      rw [requests_of_ok hdecode, ih (hpast.flows h) ⟨hrest, hframing.stops⟩, List.map_cons]

end Modbus.Source

namespace Session

variable {session : Session} {request : Request} {fault : Fault} {error : TransportError}
  {next last : Sink}

/-! ### Turns -/

/-- Why a session ends on a fault. -/
def endOnFault : Fault → SessionEnd
  | .closed => .peerClosed
  | .backend _ => .backendCrash
  | fault => .fault fault

/-- Why a session ends on the error of its sink: the peer is gone, or the transport failed. -/
def endOnError (error : TransportError) : SessionEnd :=
  if error.kind.isDisconnect then .peerClosed else .fault (.transport error)

theorem endOnFault_ofTransport (error : TransportError) :
    endOnFault (.ofTransport error) = endOnError error := by
  unfold Fault.ofTransport endOnError
  split <;> rfl

/-- **A fault ends a session that nobody stops**, and crashes the controller if the session ends
on the crash of the backend. -/
theorem terminate_of_never (h : session.shutdown = .never) (plant : State) (phase : Phase)
    (fault : Fault) :
    (session.terminate plant phase fault).finish = some (endOnFault fault) ∧
      (session.terminate plant phase fault).plant =
        if endOnFault fault = .backendCrash then plant.crash.1 else plant := by
  have hnever : session.shutdown.raised session.served phase session.source.drained = false := by
    rw [h]
    rfl
  unfold terminate
  cases fault with
  | backend length => exact ⟨rfl, rfl⟩
  | _ => simp [Fault.isBackendFailure, hnever, endOnFault]

/-- What the next turn decodes, if nobody stops the session. -/
theorem turn_of_never (h : session.shutdown = .never) (plant : State) :
    session.turn plant =
      match session.source.decode.1 with
      | .error fault =>
        { session with source := session.source.decode.2 }.terminate plant .reading fault
      | .ok request => { session with source := session.source.decode.2 }.answer plant request := by
  have hgoing :
    ¬session.shutdown.raised session.served .polling session.source.drained = true := by
    rw [h]
    exact Bool.false_ne_true
  unfold turn
  exact if_neg hgoing

/-- The session after a request whose reply was sent. -/
def afterReply (session : Session) (next : Sink) : Session :=
  { session with
    source := session.source.decode.2
    sink := next
    served := session.served + 1 }

/-- **A turn whose reply is sent** counts it and goes on. -/
theorem turn_of_sent (h : session.shutdown = .never) {plant : State} {n : Nat}
    (hdecode : session.source.decode.1 = .ok request)
    (hsend : session.sink.send (request.reply (serve plant request.action).2) = (.ok n, next)) :
    (session.turn plant).finish = none ∧
      (session.turn plant).plant = (serve plant request.action).1 ∧
      (session.turn plant).session = session.afterReply next := by
  rw [turn_of_never h, hdecode]
  dsimp only
  unfold answer
  dsimp only
  rw [hsend]
  exact ⟨rfl, rfl, rfl⟩

/-- **A turn whose reply is lost** has served its request, and ends the session. -/
theorem turn_of_lost (h : session.shutdown = .never) {plant : State}
    (hdecode : session.source.decode.1 = .ok request)
    (hsend : session.sink.send (request.reply (serve plant request.action).2) =
      (.error (.ofTransport error), last)) :
    (session.turn plant).finish = some (endOnError error) ∧
      (session.turn plant).plant = (serve plant request.action).1 ∧
      (session.turn plant).session =
        { session with source := session.source.decode.2, sink := last } := by
  rw [turn_of_never h, hdecode]
  dsimp only
  unfold answer
  dsimp only
  rw [hsend]
  dsimp only
  have hfault := Fault.isBackendFailure_ofTransport error
  refine ⟨?_, (terminate_of_not_backend _ _ _ hfault).1, session_terminate _ _ _ _⟩
  rw [← endOnFault_ofTransport]
  exact (terminate_of_never (by exact h) _ _ _).1

/-- **A turn that finds a fault** ends the session, and sends nothing. -/
theorem turn_of_fault (h : session.shutdown = .never) (plant : State)
    (hdecode : session.source.decode.1 = .error fault) :
    (session.turn plant).finish = some (endOnFault fault) ∧
      (session.turn plant).plant =
        (if endOnFault fault = .backendCrash then plant.crash.1 else plant) ∧
      (session.turn plant).session = { session with source := session.source.decode.2 } := by
  rw [turn_of_never h, hdecode]
  dsimp only
  obtain ⟨hfinish, hplant⟩ :=
    @terminate_of_never { session with source := session.source.decode.2 } h plant .reading fault
  exact ⟨hfinish, hplant, session_terminate _ _ _ _⟩

/-! ### Outcomes -/

/-- What a session comes to that had the replies to its first `k` requests taken whole, by a sink
that came to `sent`. -/
structure Outcome.Sent (outcome : Outcome) (session : Session) (plant : State) (k : Nat)
    (sent : Sink) : Prop where
  /-- These replies were written and flushed, one after the other. -/
  sends : session.sink.Sends ((replies plant session.source.requests).take k) sent
  /-- They are the ones that were counted. -/
  served : outcome.session.served = session.served + k
  /-- One more result was decoded, and none after it. -/
  source : outcome.session.source = session.source.afterDecodes (k + 1)

/-- No reply was lost, and the session ended on a fault that it read. -/
structure Outcome.Completes (outcome : Outcome) (session : Session) (plant : State) (k : Nat)
    (sent : Sink) : Prop where
  /-- These were all of the requests. -/
  all : k = session.source.requests.length
  /-- Nothing more was written. -/
  sink : outcome.session.sink = sent
  /-- What was decoded last is the fault that the session ended on. -/
  finish : ∃ fault, (session.source.afterDecodes k).decode.1 = .error fault ∧
    outcome.finish = endOnFault fault
  /-- The plant saw the writes of these requests, and the crash if the session ended on one. -/
  plant : outcome.plant =
    if outcome.finish = .backendCrash then (plant.afterWrites session.source.requests).crash.1
    else plant.afterWrites session.source.requests

/-- The reply after the first `k` was lost, and the session ended on that. -/
structure Outcome.LosesReply (outcome : Outcome) (session : Session) (plant : State) (k : Nat)
    (sent : Sink) : Prop where
  /-- It was the next one, an error of the sink cut it short, and nothing was written after that;
  the error is the reason of the end. -/
  lost : ∃ reply error, (replies plant session.source.requests)[k]? = some reply ∧
    session.sink.HasError error ∧
    sent.send reply = (.error (.ofTransport error), outcome.session.sink) ∧
    outcome.finish = endOnError error
  /-- The plant saw the writes of the first `k` requests, and of the one whose reply was lost. -/
  plant : outcome.plant = plant.afterWrites (session.source.requests.take (k + 1))

section Cons

variable {outcome : Outcome} {plant : State} {k n : Nat} {sent : Sink}
  (hdecode : session.source.decode.1 = .ok request)
  (hsend : session.sink.send (request.reply (serve plant request.action).2) = (.ok n, next))
include hdecode

theorem replies_requests (plant : State) :
    replies plant session.source.requests =
      request.reply (serve plant request.action).2 ::
        replies (serve plant request.action).1 session.source.decode.2.requests := by
  rw [Source.requests_of_ok hdecode, replies_cons]

include hsend in
/-- A reply that is sent comes before those of the rest of the session. -/
theorem Outcome.Sent.cons
    (h : outcome.Sent (session.afterReply next) (serve plant request.action).1 k sent) :
    outcome.Sent session plant (k + 1) sent where
  sends := by
    rw [replies_requests hdecode, List.take_succ_cons]
    exact .cons hsend h.sends
  served := by
    have hone : (session.afterReply next).served = session.served + 1 := rfl
    rw [h.served, hone]
    omega
  source := h.source

theorem Outcome.Completes.cons
    (h : outcome.Completes (session.afterReply next) (serve plant request.action).1 k sent) :
    outcome.Completes session plant (k + 1) sent where
  all := by
    rw [Source.requests_of_ok hdecode, List.length_cons, h.all]
    rfl
  sink := h.sink
  finish := h.finish
  plant := by
    rw [Source.requests_of_ok hdecode, State.afterWrites_cons]
    exact h.plant

include hsend in
theorem Outcome.LosesReply.cons
    (h : outcome.LosesReply (session.afterReply next) (serve plant request.action).1 k sent) :
    outcome.LosesReply session plant (k + 1) sent where
  lost := by
    obtain ⟨reply, error, hreply, herror, hlost⟩ := h.lost
    refine ⟨reply, error, ?_, (Sink.hasError_of_send_ok hsend error).mp herror, hlost⟩
    rw [replies_requests hdecode]
    exact hreply
  plant := by
    rw [Source.requests_of_ok hdecode, List.take_succ_cons, State.afterWrites_cons]
    exact h.plant

end Cons

/-- **A session that nobody stops completes, or loses one reply.** -/
theorem exists_sent (h : session.shutdown = .never) (plant : State) :
    ∃ k sent, (session.run plant).Sent session plant k sent ∧
      ((session.run plant).Completes session plant k sent ∨
        (session.run plant).LosesReply session plant k sent) := by
  induction hrequests : session.source.requests generalizing session plant with
  | nil =>
      cases hdecode : session.source.decode.1 with
      | ok request =>
          rw [Source.requests_of_ok hdecode] at hrequests
          cases hrequests
      | error fault =>
          obtain ⟨hfinish, hplant, hsession⟩ := turn_of_fault h plant hdecode
          rw [run_of_finish_eq_some hfinish, hsession, hplant]
          refine ⟨0, session.sink, ⟨.nil _, rfl, rfl⟩,
            .inl ⟨?_, rfl, ⟨fault, hdecode, rfl⟩, ?_⟩⟩
          · rw [hrequests, List.length_nil]
          · rw [hrequests]
            rfl
  | cons request later ih =>
      have hdecode : session.source.decode.1 = .ok request := by
        cases hdecode : session.source.decode.1 with
        | error fault =>
            rw [Source.requests_of_error hdecode] at hrequests
            cases hrequests
        | ok found =>
            rw [Source.requests_of_ok hdecode] at hrequests
            cases hrequests
            rfl
      have hlater : session.source.decode.2.requests = later :=
        (List.cons.inj ((Source.requests_of_ok hdecode).symm.trans hrequests)).2
      rcases hsend : session.sink.send (request.reply (serve plant request.action).2) with
        ⟨fault | n, next⟩
      · obtain ⟨error, part, -, herror, rfl, -⟩ := Sink.exists_of_send_error hsend
        obtain ⟨hfinish, hplant, hsession⟩ := turn_of_lost h hdecode hsend
        rw [run_of_finish_eq_some hfinish, hsession, hplant]
        refine ⟨0, session.sink, ⟨.nil _, rfl, rfl⟩,
          .inr ⟨⟨_, error, ?_, herror, hsend, rfl⟩, ?_⟩⟩
        · rw [replies_requests hdecode]
          rfl
        · rw [hrequests, List.take_succ_cons, State.afterWrites_cons]
          rfl
      · -- the rest is a session on the plant after the request
        obtain ⟨hfinish, hplant, hsession⟩ := turn_of_sent h hdecode hsend
        obtain ⟨k, sent, hsent, hends⟩ :=
          @ih (session.afterReply next) h (serve plant request.action).1 hlater
        rw [run_of_finish_eq_none hfinish, hsession, hplant]
        refine ⟨k + 1, sent, { hsent.cons hdecode hsend with }, ?_⟩
        obtain hcompletes | hloses := hends
        · exact .inl { hcompletes.cons hdecode with }
        · exact .inr { hloses.cons hdecode hsend with }

/-! ### What the client has -/

section Taken

variable {outcome : Outcome} {plant : State} {k : Nat} {sent : Sink}

/-- A session that completes had all its replies taken. -/
theorem Outcome.Completes.taken (h : outcome.Completes session plant k sent)
    (hsent : outcome.Sent session plant k sent) :
    outcome.session.sink.taken =
      session.sink.taken ++ (replies plant session.source.requests).flatten := by
  have hall : (replies plant session.source.requests).length = k := by
    rw [h.all, replies, List.length_mapIdx]
  rw [h.sink, hsent.sends.taken, List.take_of_length_le (Nat.le_of_eq hall)]

/-- A session that loses a reply had a part of it taken, after all replies before it. -/
theorem Outcome.LosesReply.taken (h : outcome.LosesReply session plant k sent)
    (hsent : outcome.Sent session plant k sent) :
    outcome.session.sink.taken <+:
      session.sink.taken ++ (replies plant session.source.requests).flatten := by
  obtain ⟨reply, error, hreply, -, hsend, -⟩ := h.lost
  obtain ⟨-, part, ⟨rest, hrest⟩, -, -, hlast⟩ := Sink.exists_of_send_error hsend
  obtain ⟨hk, rfl⟩ := List.getElem?_eq_some_iff.mp hreply
  have hflatten : (replies plant session.source.requests).flatten =
      ((replies plant session.source.requests).take k).flatten ++
        (part ++ (rest ++ ((replies plant session.source.requests).drop (k + 1)).flatten)) := by
    rw [← List.append_assoc part, hrest, ← List.flatten_cons, ← List.drop_eq_getElem_cons hk,
      ← List.flatten_append, List.take_append_drop]
  have htaken : outcome.session.sink.taken =
      session.sink.taken ++ ((replies plant session.source.requests).take k).flatten ++ part := by
    rw [hlast, ← hsent.sends.taken]
    rfl
  rw [htaken, hflatten, ← List.append_assoc, ← List.append_assoc]
  exact List.prefix_append _ _

/-- **Over a sink that never fails, every reply is taken.** -/
theorem taken_of_neverFails (h : session.shutdown = .never) (hsink : session.sink.NeverFails)
    (plant : State) :
    (session.run plant).session.sink.taken =
      session.sink.taken ++ (replies plant session.source.requests).flatten := by
  obtain ⟨k, sent, hsent, hcompletes | hloses⟩ := exists_sent h plant
  · exact hcompletes.taken hsent
  · obtain ⟨reply, error, -, -, hsend, -⟩ := hloses.lost
    rw [Sink.send_of_neverFails (hsent.sends.neverFails hsink)] at hsend
    cases hsend

end Taken

/-- **A session loses one acknowledgement at most, and the stream of its replies is never
corrupted.** Nothing is asked but that nobody stops it.  It has the replies to its first `k`
requests taken whole, counts these and decodes one more result; either that is a fault, which ends
the session, or a request whose write is made and whose reply is lost, and that ends the session
as the error of the sink does.  What was taken is the start of what a sink that never fails would
have taken. -/
theorem loses_one_reply_at_most (h : session.shutdown = .never) (plant : State) :
    ∃ k sent, (session.run plant).Sent session plant k sent ∧
      ((session.run plant).Completes session plant k sent ∨
        (session.run plant).LosesReply session plant k sent ∧
          (session.run plant).finish ≠ .backendCrash) ∧
      ∀ working : Sink, working.NeverFails → working.taken = session.sink.taken →
        (session.run plant).session.sink.taken <+:
          (run { session with sink := working } plant).session.sink.taken := by
  obtain ⟨k, sent, hsent, hends⟩ := exists_sent h plant
  refine ⟨k, sent, hsent, hends.imp_right fun hloses => ⟨hloses, ?_⟩,
    fun working hworking htaken => ?_⟩
  · obtain ⟨reply, error, -, -, -, hfinish⟩ := hloses.lost
    rw [hfinish, endOnError]
    split <;> nofun
  · have hall := @taken_of_neverFails { session with sink := working } h hworking plant
    rw [hall, htaken]
    obtain hcompletes | hloses := hends
    · exact (hcompletes.taken hsent).symm ▸ List.prefix_rfl
    · exact hloses.taken hsent

/-- The talkative client over a connection that takes everything, but that times out on the second
flush. -/
def impatient : Session :=
  { talkative with
    sink :=
      { full := some ⟨.timedOut, none⟩, flush := some ⟨.timedOut, none⟩, flushes := 1 } }

/-- The reply to the read is acknowledged, the one to the write is lost: the write is made, the
frame that is too large is never decoded, and the controller lives. -/
theorem loses_one_reply_at_most_impatient :
    impatient.shutdown = .never ∧
      ∀ plant, (impatient.run plant).session.served = 1 ∧
        (impatient.run plant).finish = .fault (.transport ⟨.timedOut, none⟩) ∧
        (impatient.run plant).plant =
          plant.afterWrites [⟨1, 1, .read 3 0 2, 12⟩, ⟨2, 1, .writeSingle 1 77, 12⟩] := by
  have hflows : impatient.source.Flows := fun _ => Nat.zero_lt_succ _
  have hstops : Stops (Header.toBytes ⟨3, 0, 256, 1⟩ ++ [6, 0, 1]) (.fault (.backend 256)) :=
    .oversized (by decide)
  have hframing : Framing impatient.source.bytes
      [⟨1, 1, 3, [0, 0, 0, 2], by decide⟩, ⟨2, 1, 6, [0, 1, 0, 77], by decide⟩] _ _ :=
    ⟨by decide, hstops⟩
  have hrequests : impatient.source.requests =
      [⟨1, 1, .read 3 0 2, 12⟩, ⟨2, 1, .writeSingle 1 77, 12⟩] :=
    (Source.requests_of_framing hflows hframing).trans rfl
  have herrors : ∀ error, impatient.sink.HasError error → error = ⟨.timedOut, none⟩ := by
    rintro error (rfl | hflush)
    · rfl
    · exact (Option.some.inj hflush).symm
  have hfirst : ∀ bytes, ∃ next, impatient.sink.send bytes = (.ok bytes.length, next) := by
    intro bytes
    rw [Sink.send, Sink.writeAll_of_room_none (by decide) rfl]
    exact ⟨_, rfl⟩
  refine ⟨rfl, fun plant => ?_⟩
  obtain ⟨k, sent, hsent, hends, -⟩ := @loses_one_reply_at_most impatient rfl plant
  -- the second flush fails and the first does not, so that it is the second reply that is lost
  have hmost := hsent.sends.length_le (Option.some_ne_none _)
  rw [List.length_take, replies, List.length_mapIdx, hrequests] at hmost
  obtain hcompletes | ⟨hloses, -⟩ := hends
  · have hall := hcompletes.all
    rw [hrequests] at hall
    subst hall
    exact absurd hmost (by decide)
  · obtain ⟨reply, error, -, herror, hlost, hfinish⟩ := hloses.lost
    cases herrors error herror
    have hplant := hloses.plant
    have hserved := hsent.served
    obtain _ | _ | k := k
    · cases hsent.sends
      obtain ⟨next, hnext⟩ := hfirst reply
      rw [hnext] at hlost
      cases hlost
    · rw [hrequests] at hplant
      exact ⟨hserved, hfinish, hplant⟩
    · exact absurd hmost (by show ¬min (k + 2) 2 ≤ 1; omega)

end Session

end HeatingPlant
