import HeatingPlant.Proofs.Session.Cut
import HeatingPlant.Proofs.Session.LostReplies

/-!
# Sessions that are asked to stop

The service may ask a session to stop at any moment: before it looks, while it waits for a
request, or while it serves one.  A session that has begun to read goes on to serve what it reads,
but serves nothing after that.  It ends because the service stops, whatever else went wrong,
unless the read that it could no longer call off found the backend failed.

## Main definitions

* `Session.hears` — whether the request to stop is there at the end of a phase of the next turn
* `Session.AskedIn` — the phase of the next turn in which a session is first asked to stop
* `Session.pending` — the request that it still serves
* `Session.Outcome.Stopped` — what a session comes to that is asked to stop

## Main statements

* `Session.stopped_of_askedIn` — the next turn, and whatever comes after it
* `Session.askedIn_of_afterTurns` — a session can be asked to stop at every point that it reaches
* `Session.stops_promptly` — the same for a session that has run for any number of turns
-/

namespace HeatingPlant

open Modbus

/-! ### When the request to stop is there -/

namespace Shutdown

variable {shutdown : Shutdown} {served : Nat} {phase later : Phase} {drained : Bool}

/-- The request to stop stays for the rest of the turn. -/
theorem raised_of_position_le (h : shutdown.raised served phase drained = true)
    (hle : phase.position ≤ later.position) : shutdown.raised served later drained = true := by
  cases shutdown with
  | never => exact h
  | during turn start =>
      simp only [raised, Bool.or_eq_true, Bool.and_eq_true, decide_eq_true_eq] at h ⊢
      omega
  | whenDrained => exact h

/-- The request to stop stays for the turns that follow. -/
theorem raised_succ (h : shutdown.raised served phase drained = true) (later : Phase) :
    shutdown.raised (served + 1) later drained = true := by
  cases shutdown with
  | never => exact h
  | during turn start =>
      simp only [raised, Bool.or_eq_true, Bool.and_eq_true, decide_eq_true_eq] at h ⊢
      omega
  | whenDrained => exact h

/-- There is no request to stop in the turns before its own. -/
theorem raised_during_of_lt {turn : Nat} (h : served < turn) (start phase : Phase)
    (drained : Bool) :
    (during turn start).raised served phase drained = false := by
  simp only [raised, Bool.or_eq_false_iff, Bool.and_eq_false_iff, decide_eq_false_iff_not]
  omega

/-- In its own turn it comes with its own phase. -/
theorem raised_during_self (turn : Nat) (start phase : Phase) (drained : Bool) :
    (during turn start).raised turn phase drained = decide (start.position ≤ phase.position) := by
  simp [raised]

end Shutdown

namespace Session

variable {session : Session} {phase : Phase} {request : Request} {fault : Fault} {plant : State}

/-- The source at the end of the given phase of the next turn. -/
def sourceAfter (session : Session) (phase : Phase) : Source :=
  if phase = .polling then session.source else session.source.decode.2

/-- Whether the request to stop is there at the end of the given phase of the next turn. -/
def hears (session : Session) (phase : Phase) : Bool :=
  session.shutdown.raised session.served phase (session.sourceAfter phase).drained

/-- The next turn comes to the given phase if it is not stopped before, and the session is first
asked to stop there. -/
structure AskedIn (session : Session) (phase : Phase) : Prop where
  /-- Only a request brings a turn to its last phase. -/
  comes : phase = .replying → ∃ request, session.source.decode.1 = .ok request
  /-- The request to stop is there at the end of the phase. -/
  heard : session.hears phase = true
  /-- It was not there before. -/
  unheard : ∀ earlier, earlier.position < phase.position → session.hears earlier = false

/-- The request that a session still serves when it is asked to stop in the given phase of its next
turn: the one that it has begun to read. -/
def pending (session : Session) : Phase → Option Request
  | .polling => none
  | .reading | .replying => session.source.decode.1.toOption

/-- What a session comes to on a plant that is asked to stop in the given phase of its next turn. -/
structure Outcome.Stopped (outcome : Outcome) (session : Session) (plant : State) (phase : Phase) :
    Prop where
  /-- It ends on a failed backend exactly if that is what it had begun to read. -/
  crashes_iff : outcome.finish = .backendCrash ↔
    phase = .reading ∧ ∃ length, session.source.decode.1 = .error (.backend length)
  /-- It ends for no other reason than that the service stops. -/
  finish : outcome.finish ≠ .backendCrash → outcome.finish = .shutdown
  /-- No request was served but the pending one. -/
  served : outcome.session.served ≤ session.served + (session.pending phase).toList.length
  /-- Nothing was read but what the session had begun to read. -/
  source : outcome.session.source = session.sourceAfter phase
  /-- Nothing was written but the reply to the pending request. -/
  sink : outcome.session.sink = (session.pending phase).elim session.sink fun request =>
    (session.sink.send (request.reply (serve plant request.action).2)).2
  /-- The plant saw the write of the pending request, or the crash, and nothing else. -/
  plant : outcome.plant =
    if outcome.finish = .backendCrash then plant.crash.1
    else plant.afterWrites (session.pending phase).toList

/-! ### The last turn -/

/-- What the next turn decodes, if it does not hear of it before. -/
theorem turn_of_hears (h : session.hears .polling = false) (plant : State) :
    session.turn plant =
      match session.source.decode.1 with
      | .error fault =>
        { session with source := session.source.decode.2 }.terminate plant .reading fault
      | .ok request => { session with source := session.source.decode.2 }.answer plant request := by
  have hgoing : ¬session.shutdown.raised session.served .polling session.source.drained = true :=
    fun hstops => Bool.false_ne_true (h.symm.trans hstops)
  unfold turn
  exact if_neg hgoing

/-- A turn that can send its reply goes on. -/
theorem turn_of_going {n : Nat} {next : Sink} (hgoing : session.hears .polling = false)
    (hdecode : session.source.decode.1 = .ok request)
    (hsend : session.sink.send (request.reply (serve plant request.action).2) = (.ok n, next)) :
    session.turn plant = ⟨none, session.afterReply next, (serve plant request.action).1,
      [.received session.id request.wireLength, .sent session.id n]⟩ := by
  rw [turn_of_hears hgoing, hdecode]
  dsimp only
  unfold answer
  dsimp only
  rw [hsend]
  rfl

/-- A session that hears of it before it reads does nothing more. -/
theorem run_of_hears_polling (h : session.hears .polling = true) (plant : State) :
    session.run plant = ⟨.shutdown, session, plant, []⟩ := by
  have hturn : session.turn plant = ⟨some .shutdown, session, plant, []⟩ := if_pos h
  have hfinish : (session.turn plant).finish = some .shutdown := by rw [hturn]
  rw [run_of_finish_eq_some hfinish, hturn]

/-- A fault ends a session that is asked to stop as the service does, unless the backend failed. -/
theorem terminate_of_raised
    (h : session.shutdown.raised session.served phase session.source.drained = true)
    (plant : State) (fault : Fault) :
    (session.terminate plant phase fault).finish =
        some (if fault.isBackendFailure then .backendCrash else .shutdown) ∧
      (session.terminate plant phase fault).plant =
        if fault.isBackendFailure then plant.crash.1 else plant := by
  unfold terminate
  rw [h]
  cases fault.isBackendFailure <;> exact ⟨rfl, rfl⟩

/-- The request that comes next is served, and then the session stops, whether or not the reply
could be sent. -/
theorem stopped_of_request
    (hgoing : session.hears .polling = false)
    (hdecode : session.source.decode.1 = .ok request) (h : session.hears .replying = true)
    (hphase : phase ≠ .polling) (plant : State) :
    (session.run plant).Stopped session plant phase := by
  have hturn : session.turn plant =
      answer { session with source := session.source.decode.2 } plant request := by
    rw [turn_of_hears hgoing, hdecode]
  have hpending : session.pending phase = some request := by
    cases phase with
    | polling => exact absurd rfl hphase
    | reading => rw [pending, hdecode]; rfl
    | replying => rw [pending, hdecode]; rfl
  have hnot :
    ¬(phase = .reading ∧ ∃ length, session.source.decode.1 = .error (.backend length)) := by
    rw [hdecode]
    exact fun ⟨_, _, hfault⟩ => nomatch hfault
  have hwrites : (serve plant request.action).1 = plant.afterWrites [request] :=
    (State.afterWrites_cons plant request []).symm
  cases hsend : session.sink.send (request.reply (serve plant request.action).2) with
  | mk result next =>
  cases result with
  | ok bytes =>
      have hsent := turn_of_going hgoing hdecode hsend
      -- the next turn begins with the request to stop
      have hstops : (session.afterReply next).hears .polling = true :=
        Shutdown.raised_succ h .polling
      have hrun := run_of_finish_eq_none (congrArg Turn.finish hsent)
      rw [hsent, run_of_hears_polling hstops] at hrun
      rw [hrun]
      refine ⟨iff_of_false nofun hnot, fun _ => rfl, ?_, (if_neg hphase).symm, ?_, ?_⟩
      · rw [hpending]
        exact Nat.le_refl _
      · rw [hpending, Option.elim_some, hsend]
        rfl
      · rw [hpending]
        exact hwrites
  | error fault =>
      have hfault : fault.isBackendFailure = false :=
        Sink.isBackendFailure_send (congrArg Prod.fst hsend)
      obtain ⟨hfinish, hplant⟩ := @terminate_of_raised
        { session with source := session.source.decode.2, sink := next } .replying h
        (serve plant request.action).1 fault
      rw [hfault] at hfinish hplant
      have hlost : (session.turn plant).finish = some .shutdown ∧
          (session.turn plant).plant = (serve plant request.action).1 ∧
          (session.turn plant).session =
            { session with source := session.source.decode.2, sink := next } := by
        rw [hturn, answer]
        dsimp only
        rw [hsend]
        exact ⟨hfinish, hplant, session_terminate _ _ _ _⟩
      obtain ⟨hfinish, hplant, hsession⟩ := hlost
      rw [run_of_finish_eq_some hfinish, hplant, hsession]
      refine ⟨iff_of_false nofun hnot, fun _ => rfl, Nat.le_add_right _ _,
        (if_neg hphase).symm, ?_, ?_⟩
      · rw [hpending, Option.elim_some, hsend]
      · rw [hpending]
        exact hwrites

/-- A fault that comes next ends the session, and nothing is sent. -/
theorem stopped_of_fault
    (hgoing : session.hears .polling = false)
    (hdecode : session.source.decode.1 = .error fault) (h : session.hears .reading = true)
    (plant : State) : (session.run plant).Stopped session plant .reading := by
  have hturn : session.turn plant =
      terminate { session with source := session.source.decode.2 } plant .reading fault := by
    rw [turn_of_hears hgoing, hdecode]
  obtain ⟨hfinish, hplant⟩ := @terminate_of_raised
    { session with source := session.source.decode.2 } .reading h plant fault
  rw [← hturn] at hfinish hplant
  have hpending : session.pending .reading = none := by
    rw [pending, hdecode]
    rfl
  rw [run_of_finish_eq_some hfinish, hplant, hturn, session_terminate]
  refine ⟨?_, ?_, Nat.le_add_right _ _, rfl, ?_, ?_⟩
  · rw [hdecode]
    cases fault <;> simp [Fault.isBackendFailure]
  · dsimp only
    split <;> simp
  · rw [hpending]
    rfl
  · rw [hpending]
    cases fault.isBackendFailure <;> rfl

/-- **A session that is asked to stop in its next turn stops there**, or as soon as the request
that it has begun to read is served. -/
theorem stopped_of_askedIn (h : session.AskedIn phase) (plant : State) :
    (session.run plant).Stopped session plant phase := by
  cases phase with
  | polling =>
      rw [run_of_hears_polling h.heard]
      exact ⟨iff_of_false nofun nofun, fun _ => rfl, Nat.le_refl _, rfl, rfl, rfl⟩
  | reading =>
      have hgoing := h.unheard .polling (by decide)
      cases hdecode : session.source.decode.1 with
      | ok request =>
          have hreplying : session.hears .replying = true :=
            Shutdown.raised_of_position_le h.heard (by decide)
          exact stopped_of_request hgoing hdecode hreplying (by decide) plant
      | error fault => exact stopped_of_fault hgoing hdecode h.heard plant
  | replying =>
      obtain ⟨request, hdecode⟩ := h.comes rfl
      exact stopped_of_request (h.unheard .polling (by decide)) hdecode h.heard (by decide) plant

/-! ### Every point of a session -/

/-- The session with another moment at which it is asked to stop. -/
def withShutdown (session : Session) (shutdown : Shutdown) : Session :=
  { session with shutdown := shutdown }

/-- A turn that goes on has heard of nothing, and has sent the reply to a request. -/
theorem exists_of_finish_eq_none (h : (session.turn plant).finish = none) :
    session.hears .polling = false ∧ ∃ request n next, session.source.decode.1 = .ok request ∧
      session.sink.send (request.reply (serve plant request.action).2) = (.ok n, next) := by
  cases hgoing : session.hears .polling with
  | true =>
      have hturn : session.turn plant = ⟨some .shutdown, session, plant, []⟩ := if_pos hgoing
      rw [hturn] at h
      cases h
  | false =>
      refine ⟨rfl, ?_⟩
      rw [turn_of_hears hgoing] at h
      cases hdecode : session.source.decode.1 with
      | error fault =>
          rw [hdecode] at h
          exact absurd h (finish_terminate _ _ _ _)
      | ok request =>
          rw [hdecode] at h
          dsimp only at h
          unfold answer at h
          dsimp only at h
          split at h
          · rename_i n next hsend
            exact ⟨request, n, next, rfl, hsend⟩
          · exact absurd h (finish_terminate _ _ _ _)

/-- **Until it is asked to stop, a session takes the turns of one that nobody stops.** -/
theorem afterTurns_withShutdown {turns : Nat} {next : Session} {later : State}
    (hnever : session.shutdown = .never)
    (h : session.afterTurns plant turns = some (next, later)) (phase : Phase) :
    next.shutdown = .never ∧ next.served = session.served + turns ∧
      (session.withShutdown (.during (session.served + turns) phase)).afterTurns plant turns =
        some (next.withShutdown (.during (session.served + turns) phase), later) := by
  induction turns generalizing session plant with
  | zero =>
      cases h
      exact ⟨hnever, rfl, rfl⟩
  | succ turns ih =>
      have hfinish := finish_eq_none_of_afterTurns h
      obtain ⟨hgoing, request, n, sink, hdecode, hsend⟩ := exists_of_finish_eq_none hfinish
      have hturn := turn_of_going hgoing hdecode hsend
      rw [afterTurns_succ hfinish, hturn] at h
      have hcount : (session.afterReply sink).served + turns = session.served + (turns + 1) :=
        Nat.add_right_comm session.served 1 turns
      have hafter : (session.afterReply sink).shutdown = .never := hnever
      obtain ⟨hstill, hserved, hlater⟩ := ih hafter h
      rw [hcount] at hserved hlater
      have hearly : (session.withShutdown (.during (session.served + (turns + 1)) phase)).hears
          .polling = false :=
        Shutdown.raised_during_of_lt (Nat.lt_add_of_pos_right (Nat.succ_pos turns)) _ _ _
      have hasked := turn_of_going hearly hdecode hsend
      refine ⟨hstill, hserved, ?_⟩
      rw [afterTurns_succ (by rw [hasked]), hasked]
      exact hlater

/-- A session that was never asked to stop can be, in any phase that its next turn comes to. -/
theorem askedIn_withShutdown
    (hcomes : phase = .replying → ∃ request, session.source.decode.1 = .ok request) :
    (session.withShutdown (.during session.served phase)).AskedIn phase := by
  refine ⟨hcomes, ?_, fun earlier hearlier => ?_⟩
  · exact (Shutdown.raised_during_self _ _ _ _).trans (decide_eq_true (Nat.le_refl _))
  · exact (Shutdown.raised_during_self _ _ _ _).trans (decide_eq_false (Nat.not_le.mpr hearlier))

/-- **A session that is asked to stop stops, after one more request at most.**  Wherever it has
come when it is first asked, it does nothing more than to serve the request that it has begun to
read; and a session that nobody stops may be asked at every point that it comes to. -/
theorem stops_promptly (session : Session) (plant : State) (turns : Nat) (next : Session)
    (later : State) (h : session.afterTurns plant turns = some (next, later)) (phase : Phase) :
    (next.AskedIn phase → (session.run plant).Stopped next later phase) ∧
      (session.shutdown = .never →
        (phase = .replying → ∃ request, next.source.decode.1 = .ok request) →
        (session.withShutdown (.during (session.served + turns) phase)).afterTurns plant turns =
            some (next.withShutdown (.during (session.served + turns) phase), later) ∧
          (next.withShutdown (.during (session.served + turns) phase)).AskedIn phase) := by
  refine ⟨fun hasked => ?_, fun hnever hcomes => ?_⟩
  · obtain ⟨notices, hrun⟩ := exists_run_of_afterTurns h
    have hstopped := stopped_of_askedIn hasked later
    rw [hrun]
    exact ⟨hstopped.crashes_iff, hstopped.finish, hstopped.served, hstopped.source, hstopped.sink,
      hstopped.plant⟩
  · obtain ⟨-, hserved, hturns⟩ := afterTurns_withShutdown hnever h phase
    refine ⟨hturns, ?_⟩
    rw [← hserved]
    exact askedIn_withShutdown hcomes

/-- The talkative client, whose service stops while the frame that is too large is read. -/
def recalled : Session := talkative.withShutdown (.during 2 .reading)

/-- The backend fails all the same, and the crash is not lost. -/
theorem stops_promptly_recalled :
    ∃ next later, recalled.afterTurns .initial 2 = some (next, later) ∧
      next.AskedIn .reading ∧ (recalled.run .initial).finish = .backendCrash ∧
      (recalled.run .initial).plant = later.crash.1 := by
  have htalkative : talkative.Undisturbed :=
    ⟨fun _ => Nat.zero_lt_succ _, rfl, ⟨by decide, rfl, rfl⟩, rfl⟩
  obtain ⟨next, hnext, hbytes, hturns⟩ := @exists_afterTurns_of_framing talkative
    [⟨1, 1, 3, [0, 0, 0, 2], by decide⟩, ⟨2, 1, 6, [0, 1, 0, 77], by decide⟩]
    (Header.toBytes ⟨3, 0, 256, 1⟩ ++ [6, 0, 1]) htalkative (by decide) .initial
  have hdecode : next.source.decode.1 = .error (.backend 256) := by
    rw [(Source.decode_of_flows hnext.flows).1, hbytes, scan_of_error rfl]
    rfl
  obtain ⟨-, hpoints⟩ := stops_promptly talkative .initial 2 next _ hturns .reading
  obtain ⟨hlater, hasked⟩ := hpoints rfl nofun
  obtain ⟨hstopped, -⟩ := stops_promptly recalled .initial 2 _ _ hlater .reading
  have hcrash := (hstopped hasked).crashes_iff.mpr ⟨rfl, 256, hdecode⟩
  refine ⟨_, _, hlater, hasked, hcrash, ?_⟩
  rw [(hstopped hasked).plant, if_pos hcrash]

end Session

end HeatingPlant
