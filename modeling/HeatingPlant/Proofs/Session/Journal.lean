import HeatingPlant.Proofs.Modbus.Decoding
import HeatingPlant.Proofs.Session.Stopping

/-!
# What a session tells

A session tells of every request as it is received, and of the reply as soon as that is sent.  In
the end it warns if it ends on a fault of its own, and raises an alarm if the backend failed; a
peer that leaves and a service that stops are told by nobody.  No request adds a warning, whatever
it asks for.

## Main definitions

* `Session.exchanges` — the notices of requests that were answered
* `Session.Closing` — the notices that a session ends with
* `Session.LastTurn` — the three ways in which a session ends
* `Session.Outcome.Tells` — the course of a session, and its notices from the first to the last

## Main statements

* `Session.closing_terminate` — what the end of a session on a fault tells
* `Session.exists_tells` — every session has such a course
* `Session.journal_exact` — its notices, with what follows for their numbers and their urgency

## Design notes

The notices are determined by the requests that are decoded, which are the first that the source
comes to, and by the last turn.  So the induction over the turns has one case for a turn that goes
on, and `Session.LastTurn` has the others.
-/

namespace HeatingPlant

open Modbus

/-! ### Kinds of notices -/

namespace Notice

/-- Whether a notice tells that a reply was sent. -/
def isSent : Notice → Bool
  | sent .. => true
  | _ => false

/-- The size that a notice of a request tells. -/
def receivedBytes? : Notice → Option ℕ
  | received _ bytes => some bytes
  | _ => none

/-- Whether a notice is a warning or more urgent. -/
def isAlarm (notice : Notice) : Bool := Level.warn.urgency ≤ notice.level.urgency

end Notice

/-- **Decoding requests takes their frames off the bytes**, and nothing else. -/
theorem Modbus.Source.sum_wireLength {source : Source} {decoded : List Request}
    (h : decoded <+: source.requests) :
    (decoded.map Request.wireLength).sum + (source.afterDecodes decoded.length).bytes.length =
      source.bytes.length := by
  induction decoded generalizing source with
  | nil => exact Nat.zero_add _
  | cons request rest ih =>
      cases hdecode : source.decode.1 with
      | error fault =>
          rw [requests_of_error hdecode] at h
          exact absurd (List.prefix_nil.mp h) (List.cons_ne_nil _ _)
      | ok found =>
          rw [requests_of_ok hdecode, List.cons_prefix_cons] at h
          obtain ⟨rfl, hrest⟩ := h
          have hfirst := (hdecode ▸ takes_decode source).wireLength
          have hlater := ih hrest
          rw [List.map_cons, List.sum_cons, List.length_cons, afterDecodes_succ]
          omega

namespace Session

variable {id : ℕ} {peer : Endpoint} {plant : State} {request : Request} {fault : Fault}
  {session : Session}

/-! ### The notices of a session -/

/-- The notices of requests that were answered: each was received, and its reply was sent. -/
def exchanges (id : ℕ) (plant : State) (answered : List Request) : List Notice :=
  (answered.zip (replies plant answered)).flatMap fun exchange =>
    [.received id exchange.1.wireLength, .sent id exchange.2.length]

theorem exchanges_cons (id : ℕ) (plant : State) (request : Request) (later : List Request) :
    exchanges id plant (request :: later) =
      .received id request.wireLength ::
        .sent id (request.reply (serve plant request.action).2).length ::
          exchanges id (serve plant request.action).1 later := by
  rw [exchanges, replies_cons, List.zip_cons_cons, List.flatMap_cons]
  rfl

/-- The notices that a session ends with, on a plant as it finds it and on the fault that it ends
on, if it is one. -/
inductive Closing (id : ℕ) (peer : Endpoint) (plant : State) :
    Option Fault → SessionEnd → List Notice → Prop
  /-- A session that is asked to stop before it reads says nothing. -/
  | asked : Closing id peer plant none .shutdown []
  /-- Nor does one that is asked to stop before it heeds its fault. -/
  | askedFirst {fault : Fault} (h : fault.isBackendFailure = false) :
      Closing id peer plant (some fault) .shutdown []
  /-- Nor one whose peer leaves. -/
  | peerClosed : Closing id peer plant (some .closed) .peerClosed []
  /-- A fault of its own is a warning. -/
  | fault {fault : Fault} (h : fault.isBackendFailure = false) (hopen : fault ≠ .closed) :
      Closing id peer plant (some fault) (.fault fault) [.dropped id peer fault]
  /-- A failure of the backend is an alarm, and another one if the controller was running. -/
  | backendCrash (length : UInt16) :
      Closing id peer plant (some (.backend length)) .backendCrash
        (.backendFailed id peer (.backend length) ::
          if plant.controllerRunning then
            [.controllerCrashed (Fault.backend length).message plant.valvePosition]
          else [])

/-- **What the end of a session on a fault tells.** -/
theorem closing_terminate (session : Session) (plant : State) (phase : Phase) (fault : Fault) :
    ∃ finish, (session.terminate plant phase fault).finish = some finish ∧
      Closing session.id session.peer plant (some fault) finish
        (session.terminate plant phase fault).notices := by
  cases hbackend : fault.isBackendFailure with
  | true =>
      obtain ⟨length, rfl⟩ : ∃ length, fault = .backend length := by
        cases fault with
        | backend length => exact ⟨length, rfl⟩
        | _ => cases hbackend
      refine ⟨.backendCrash, rfl, ?_⟩
      have hnotices : (session.terminate plant phase (.backend length)).notices =
          .backendFailed session.id session.peer (.backend length) ::
            if plant.crash.2 then
              [.controllerCrashed (Fault.backend length).message plant.crash.1.valvePosition]
            else [] := rfl
      rw [hnotices, State.crash_snd, State.valvePosition_crash]
      exact .backendCrash length
  | false =>
      unfold terminate
      simp only [hbackend, Bool.false_eq_true, if_false]
      split
      · exact ⟨.shutdown, rfl, .askedFirst hbackend⟩
      · split
        · rename_i hclosed
          subst hclosed
          exact ⟨.peerClosed, rfl, .peerClosed⟩
        · rename_i hopen
          exact ⟨.fault fault, rfl, .fault hbackend hopen⟩

/-! ### The course of a session -/

/-- The last turn of a session over a source and a sink as they are by then: the request whose
reply is lost and the fault that the session ends on, if there are such, and the source and the
sink afterwards. -/
inductive LastTurn (source : Source) (sink : Sink) (plant : State) :
    Option Request → Option Fault → Source → Sink → Prop
  /-- The session is asked to stop before it reads. -/
  | asked : LastTurn source sink plant none none source sink
  /-- It reads a fault. -/
  | reads {fault : Fault} (hdecode : source.decode.1 = .error fault) :
      LastTurn source sink plant none (some fault) source.decode.2 sink
  /-- It serves a request, and a fault cuts the reply short. -/
  | loses {request : Request} {fault : Fault} {last : Sink}
      (hdecode : source.decode.1 = .ok request)
      (hsend : sink.send (request.reply (serve plant request.action).2) = (.error fault, last)) :
      LastTurn source sink plant (some request) (some fault) source.decode.2 last

/-- The course of a session that answers some requests, then loses a reply or does not, and ends
with some notices. -/
structure Outcome.Tells (outcome : Outcome) (session : Session) (plant : State)
    (answered : List Request) (lost : Option Request) (last : List Notice) : Prop where
  /-- These requests are the first that the source comes to. -/
  decoded : answered ++ lost.toList <+: session.source.requests
  /-- The replies to the answered ones were sent, the turn after that was the last, and nothing
  else was decoded; what ended the session decides what it tells in the end. -/
  course : ∃ sent cause, session.sink.Sends (replies plant answered) sent ∧
    LastTurn (session.source.afterDecodes answered.length) sent
      (plant.afterWrites answered) lost cause
      outcome.session.source outcome.session.sink ∧
    Closing session.id session.peer (plant.afterWrites (answered ++ lost.toList))
      cause outcome.finish
      last
  /-- The answered ones were counted. -/
  served : outcome.session.served = session.served + answered.length
  /-- The answered ones were told with their replies, the other without, and then came the end. -/
  notices : outcome.notices = exchanges session.id plant answered ++
    (lost.toList.map fun request => .received session.id request.wireLength) ++ last

/-- A turn that cannot send its reply ends as the fault does that cut it short. -/
theorem turn_of_losing {next : Sink} (hgoing : session.hears .polling = false)
    (hdecode : session.source.decode.1 = .ok request)
    (hsend : session.sink.send (request.reply (serve plant request.action).2) =
      (.error fault, next)) :
    let last := terminate { session with source := session.source.decode.2, sink := next }
      (serve plant request.action).1 .replying fault
    session.turn plant =
      { last with notices := .received session.id request.wireLength :: last.notices } := by
  intro last
  rw [turn_of_hears hgoing, hdecode]
  dsimp only
  unfold answer
  dsimp only
  rw [hsend]

/-- A session that is asked to stop before it reads tells nothing. -/
theorem tells_of_asked (h : session.hears .polling = true) (plant : State) :
    (session.run plant).Tells session plant [] none [] := by
  rw [run_of_hears_polling h]
  exact ⟨List.nil_prefix, ⟨_, _, .nil _, .asked, .asked⟩, rfl, rfl⟩

/-- One that reads a fault tells what that deserves. -/
theorem exists_tells_of_reads (hgoing : session.hears .polling = false)
    (hdecode : session.source.decode.1 = .error fault) (plant : State) :
    ∃ last, (session.run plant).Tells session plant [] none last := by
  have hturn : session.turn plant =
      terminate { session with source := session.source.decode.2 } plant .reading fault := by
    rw [turn_of_hears hgoing, hdecode]
  obtain ⟨finish, hfinish, hclosing⟩ :=
    closing_terminate { session with source := session.source.decode.2 } plant .reading fault
  rw [← hturn] at hfinish
  rw [run_of_finish_eq_some hfinish, hturn, session_terminate]
  exact ⟨_, List.nil_prefix, ⟨_, _, .nil _, .reads hdecode, hclosing⟩, rfl, rfl⟩

/-- One that loses a reply tells of the request before that. -/
theorem exists_tells_of_loses {next : Sink} (hgoing : session.hears .polling = false)
    (hdecode : session.source.decode.1 = .ok request)
    (hsend : session.sink.send (request.reply (serve plant request.action).2) =
      (.error fault, next)) :
    ∃ last, (session.run plant).Tells session plant [] (some request) last := by
  have hturn := turn_of_losing hgoing hdecode hsend
  obtain ⟨finish, hfinish, hclosing⟩ := closing_terminate
    { session with source := session.source.decode.2, sink := next } (serve plant request.action).1
    .replying fault
  have hlast : (session.turn plant).finish = some finish := by
    rw [hturn]
    exact hfinish
  have hplant : plant.afterWrites [request] = (serve plant request.action).1 :=
    State.afterWrites_cons plant request []
  have hfirst : [request] <+: session.source.requests := by
    rw [Source.requests_of_ok hdecode, List.cons_prefix_cons]
    exact ⟨rfl, List.nil_prefix⟩
  rw [run_of_finish_eq_some hlast, hturn]
  dsimp only
  rw [session_terminate]
  refine ⟨_, hfirst, ⟨_, _, .nil _, .loses hdecode hsend, ?_⟩, rfl, rfl⟩
  rw [List.nil_append, Option.toList_some, hplant]
  exact hclosing

/-- **A turn that goes on tells of its request and of the reply**, and the rest of the session
tells what it tells on the plant after the request. -/
theorem Outcome.Tells.cons {outcome : Outcome} {answered : List Request} {lost : Option Request}
    {last : List Notice} {next : Sink} {n : ℕ} (hdecode : session.source.decode.1 = .ok request)
    (hsend : session.sink.send (request.reply (serve plant request.action).2) = (.ok n, next))
    (h : outcome.Tells (session.afterReply next) (serve plant request.action).1
      answered lost last) :
    { outcome with
      notices := [Notice.received session.id request.wireLength, .sent session.id n] ++
        outcome.notices }.Tells session plant (request :: answered) lost last where
  decoded := by
    rw [Source.requests_of_ok hdecode, List.cons_append, List.cons_prefix_cons]
    exact ⟨rfl, h.decoded⟩
  course := by
    obtain ⟨sent, cause, hsends, hlast, hclosing⟩ := h.course
    refine ⟨sent, cause, ?_, ?_, ?_⟩
    · rw [replies_cons]
      exact .cons hsend hsends
    · rw [State.afterWrites_cons]
      exact hlast
    · rw [List.cons_append, State.afterWrites_cons]
      exact hclosing
  served := by
    have hone : (session.afterReply next).served = session.served + 1 := rfl
    rw [h.served, hone, List.length_cons]
    omega
  notices := by
    rw [h.notices, Sink.length_of_send_ok hsend, exchanges_cons]
    rfl

/-- **Every session answers some requests, then loses a reply or does not, and ends.** -/
theorem exists_tells (session : Session) (plant : State) :
    ∃ answered lost last, (session.run plant).Tells session plant answered lost last := by
  -- each turn that goes on takes bytes off the source
  induction hbytes : session.source.bytes.length using Nat.strongRecOn
    generalizing session plant with
  | _ bytes ih =>
      cases hgoing : session.hears .polling with
      | true => exact ⟨[], none, [], tells_of_asked hgoing plant⟩
      | false =>
          cases hdecode : session.source.decode.1 with
          | error fault =>
              obtain ⟨last, h⟩ := exists_tells_of_reads hgoing hdecode plant
              exact ⟨[], none, last, h⟩
          | ok request =>
              rcases hsend : session.sink.send (request.reply (serve plant request.action).2) with
                ⟨fault | n, next⟩
              · obtain ⟨last, h⟩ := exists_tells_of_loses hgoing hdecode hsend
                exact ⟨[], some request, last, h⟩
              · have hturn := turn_of_going hgoing hdecode hsend
                have hfinish : (session.turn plant).finish = none := by rw [hturn]
                have hlt := turn_lt hfinish
                rw [hbytes, hturn] at hlt
                obtain ⟨answered, lost, last, h⟩ :=
                  ih _ hlt (session.afterReply next) (serve plant request.action).1 rfl
                rw [run_of_finish_eq_none hfinish, hturn]
                exact ⟨request :: answered, lost, last, h.cons hdecode hsend⟩

/-! ### Numbers and urgency -/

section Counts

variable {cause : Option Fault} {finish : SessionEnd} {last : List Notice}

theorem countP_isSent_exchanges (id : ℕ) (plant : State) (answered : List Request) :
    (exchanges id plant answered).countP Notice.isSent = answered.length := by
  induction answered generalizing plant with
  | nil => rfl
  | cons request later ih =>
      rw [exchanges_cons, List.countP_cons_of_neg Bool.false_ne_true,
        List.countP_cons_of_pos rfl, ih, List.length_cons]

theorem receivedBytes_exchanges (id : ℕ) (plant : State) (answered : List Request) :
    (exchanges id plant answered).filterMap Notice.receivedBytes? =
      answered.map Request.wireLength := by
  induction answered generalizing plant with
  | nil => rfl
  | cons request later ih =>
      rw [exchanges_cons, List.filterMap_cons, List.filterMap_cons, ih, List.map_cons]
      rfl

/-- A request that is answered raises no alarm, whatever it asks for. -/
theorem isAlarm_exchanges (id : ℕ) (plant : State) (answered : List Request) :
    ∀ notice ∈ exchanges id plant answered, notice.isAlarm = false := by
  intro notice hnotice
  obtain ⟨exchange, -, hmem⟩ := List.mem_flatMap.mp hnotice
  rcases List.mem_pair.mp hmem with rfl | rfl
  · rfl
  · rfl

/-- The notices that a session ends with are alarms, and tell of no request. -/
theorem Closing.kinds (h : Closing id peer plant cause finish last) :
    ∀ notice ∈ last, notice.isAlarm = true ∧ notice.isSent = false ∧
      notice.receivedBytes? = none := by
  cases h with
  | asked | askedFirst | peerClosed => exact fun _ hnone => absurd hnone List.not_mem_nil
  | fault hbackend hopen =>
      rintro notice hnotice
      obtain rfl := List.mem_singleton.mp hnotice
      exact ⟨rfl, rfl, rfl⟩
  | backendCrash length =>
      refine List.forall_mem_cons.mpr ⟨⟨rfl, rfl, rfl⟩, ?_⟩
      split
      · exact List.forall_mem_singleton.mpr ⟨rfl, rfl, rfl⟩
      · exact fun _ hnone => absurd hnone List.not_mem_nil

variable {outcome : Outcome} {answered : List Request} {lost : Option Request}
  (h : outcome.Tells session plant answered lost last)
include h

/-- As many notices tell of a reply as requests were answered. -/
theorem Outcome.Tells.countP_isSent : outcome.notices.countP Notice.isSent = answered.length := by
  obtain ⟨sent, cause, -, -, hclosing⟩ := h.course
  have hlost : (lost.toList.map fun request => Notice.received session.id request.wireLength).countP
      Notice.isSent = 0 := by
    cases lost <;> rfl
  have hlast : last.countP Notice.isSent = 0 :=
    List.countP_eq_zero.mpr fun notice hnotice => by simp [(hclosing.kinds notice hnotice).2.1]
  rw [h.notices, List.countP_append, List.countP_append, countP_isSent_exchanges, hlost, hlast,
    Nat.add_zero]

/-- The sizes that are told are those of the requests that were decoded. -/
theorem Outcome.Tells.receivedBytes : outcome.notices.filterMap Notice.receivedBytes? =
    (answered ++ lost.toList).map Request.wireLength := by
  obtain ⟨sent, cause, -, -, hclosing⟩ := h.course
  have hlost : (lost.toList.map fun request =>
      Notice.received session.id request.wireLength).filterMap Notice.receivedBytes? =
        lost.toList.map Request.wireLength := by
    cases lost <;> rfl
  have hlast : last.filterMap Notice.receivedBytes? = [] :=
    List.filterMap_eq_nil_iff.mpr fun notice hnotice => (hclosing.kinds notice hnotice).2.2
  rw [h.notices, List.filterMap_append, List.filterMap_append,
    receivedBytes_exchanges, hlost, hlast, List.append_nil, List.map_append]

/-- The alarms are what the session ends with. -/
theorem Outcome.Tells.filter_isAlarm : outcome.notices.filter Notice.isAlarm = last := by
  obtain ⟨sent, cause, -, -, hclosing⟩ := h.course
  have hexchanges : (exchanges session.id plant answered).filter Notice.isAlarm = [] :=
    List.filter_eq_nil_iff.mpr fun notice hnotice => by
      simp [isAlarm_exchanges session.id plant answered notice hnotice]
  have hlost : (lost.toList.map fun request => Notice.received session.id request.wireLength).filter
      Notice.isAlarm = [] := by
    cases lost <;> rfl
  have hlast : last.filter Notice.isAlarm = last :=
    List.filter_eq_self.mpr fun notice hnotice => (hclosing.kinds notice hnotice).1
  rw [h.notices, List.filter_append, List.filter_append, hexchanges, hlost, hlast]
  rfl

end Counts

/-- **What a session tells, exactly**, over any source and any sink, on any plant and whenever it
is asked to stop.  Every request that it decodes is told with its size, and right after it the
reply with its own, except for a last request whose reply is lost; then come the notices of the
end, which are the only alarms.  As many replies are told as requests were counted, and the sizes
of the requests add up to the bytes that they took off the source. -/
theorem journal_exact (session : Session) (plant : State) :
    let outcome := session.run plant
    ∃ answered lost last, outcome.Tells session plant answered lost last ∧
      outcome.session.served = session.served + outcome.notices.countP Notice.isSent ∧
      (outcome.notices.filterMap Notice.receivedBytes?).sum +
          (session.source.afterDecodes (answered ++ lost.toList).length).bytes.length =
        session.source.bytes.length ∧
      outcome.notices.filter Notice.isAlarm = last := by
  intro outcome
  obtain ⟨answered, lost, last, h⟩ := exists_tells session plant
  refine ⟨answered, lost, last, h, ?_, ?_, h.filter_isAlarm⟩
  · rw [h.served, h.countP_isSent]
  · rw [h.receivedBytes]
    exact Source.sum_wireLength h.decoded

end Session

end HeatingPlant
