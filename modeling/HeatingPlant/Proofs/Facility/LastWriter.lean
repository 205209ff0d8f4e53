import HeatingPlant.Proofs.Facility.Crash
import HeatingPlant.Proofs.Modbus.Replies
import HeatingPlant.Proofs.Registers.ReadBack

/-!
# The last writer wins

Any number of clients read and write one plant.  As long as the timer does not step and the
controller does not crash, what a client reads is a matter of the requests served so far, whoever
sent them: of each register, the word of the last request that had an acceptable one for it.

## Main definitions

* `Modbus.Action.leaves?` — the word that an action leaves in a register
* `lastWrite` — the word that the last of some actions with an acceptable one has for a register
* `Session.request?`, `Session.reply?` — the request that the next turn of a session serves, and
  the reply to it
* `Facility.served` — the actions that are served on the way of some moves
* `Facility.ServesOnly` — the moves are turns, and none of them crashes the controller
* `Facility.Reads` — a client reads some words in the next turn

## Main statements

* `Session.turn_of_request`, `Session.plant_turn_of_none` — the two kinds of turn
* `Facility.ServesOnly.run_eq_take` — the plant after a run is the plant before it, with the last
  writes of the run
* `Facility.Reads.words_eq` — the words that a client reads
* `Facility.last_writer_wins` — what clients read, against the history of their writes

## Design notes

A write counts from the turn that serves it, also if its reply is lost.  The history is that of the
turns, which are what the sessions take in any order; the bytes of different connections have no
order among each other.
-/

namespace HeatingPlant

open Modbus

/-! ### Histories of writes -/

/-- The word that an action leaves in a register, if it has an acceptable one for it. -/
def Modbus.Action.leaves? (action : Action) (register : Register) : Option UInt16 :=
  action.written.bind fun block => accepted block.1 block.2 register

/-- An action leaves nothing in a register but what it takes. -/
theorem Modbus.Action.takes_of_leaves? {action : Action} {register : Register} {word : UInt16}
    (h : action.leaves? register = some word) : register.takes word = true := by
  obtain ⟨block, -, haccepted⟩ := Option.bind_eq_some_iff.mp h
  exact takes_of_accepted haccepted

/-- The word of the last action that leaves one in a register. -/
def lastWrite (actions : List Action) (register : Register) : Option UInt16 :=
  (actions.filterMap (·.leaves? register)).getLast?

section LastWrite

variable {actions : List Action} {register : Register}

theorem lastWrite_singleton (action : Action) : lastWrite [action] = action.leaves? := by
  funext register
  cases h : action.leaves? register with
  | none => simp only [lastWrite, List.filterMap_cons, h, List.filterMap_nil, List.getLast?_nil]
  | some word =>
      simp only [lastWrite, List.filterMap_cons, h, List.filterMap_nil, List.getLast?_singleton]

/-- The later actions come before the earlier ones. -/
theorem lastWrite_append (first second : List Action) :
    lastWrite (first ++ second) = fun register =>
      (lastWrite second register).or (lastWrite first register) := by
  funext register
  rw [lastWrite, List.filterMap_append, List.getLast?_append]
  rfl

theorem lastWrite_of_forall (h : ∀ action ∈ actions, action.leaves? register = none) :
    lastWrite actions register = none := by
  rw [lastWrite, List.filterMap_eq_nil_iff.mpr h, List.getLast?_nil]

theorem takes_of_lastWrite {word : UInt16} (h : lastWrite actions register = some word) :
    register.takes word = true := by
  obtain ⟨action, -, hleaves⟩ := List.mem_filterMap.mp (List.mem_of_getLast? h)
  exact action.takes_of_leaves? hleaves

/-- No action leaves a word in a register that clients cannot write. -/
theorem lastWrite_of_not_writable (h : register ∉ Register.writable) (actions : List Action) :
    lastWrite actions register = none := by
  cases hlast : lastWrite actions register with
  | none => rfl
  | some word =>
      have htakes := takes_of_lastWrite hlast
      cases register with
      | valveCommand | setpoint | mode => exact absurd (by decide) h
      | _ => cases htakes

end LastWrite

/-- Serving an action gives the registers the words that it leaves in them. -/
theorem serve_eq_take (s : State) (action : Action) :
    (serve s action).1 = s.take action.leaves? := by
  unfold serve Action.leaves?
  cases action.written with
  | none => rfl
  | some block => exact s.writeBlock_eq_take block.1 block.2

/-! ### Turns -/

namespace Session

variable {session : Session} {request : Request}

/-- The request that the next turn of a session serves. -/
def request? (session : Session) : Option Request :=
  if session.shutdown.raised session.served .polling session.source.drained then none
  else session.source.decode.1.toOption

/-- The reply that the next turn of a session sends. -/
def reply? (session : Session) (plant : State) : Option (List UInt8) :=
  session.request?.map fun request => request.reply (serve plant request.action).2

theorem request?_eq_some_iff :
    session.request? = some request ↔
      session.shutdown.raised session.served .polling session.source.drained = false ∧
        session.source.decode.1 = .ok request := by
  unfold request?
  split
  · rename_i hstop
    simp [hstop]
  · rename_i hgoing
    rw [Bool.not_eq_true] at hgoing
    cases hdecode : session.source.decode.1 with
    | ok found => simp [hgoing, Except.toOption]
    | error fault => simp [Except.toOption]

theorem session_terminate (session : Session) (plant : State) (phase : Phase) (fault : Fault) :
    (session.terminate plant phase fault).session = session := by
  unfold terminate
  split
  · rfl
  · split
    · rfl
    · split <;> rfl

/-- **A turn that serves a request does to the plant what the request does, and sends the reply**,
whatever comes of sending it. -/
theorem turn_of_request (h : session.request? = some request) (plant : State) :
    (session.turn plant).plant = (serve plant request.action).1 ∧
      (session.turn plant).session.sink =
        (session.sink.send (request.reply (serve plant request.action).2)).2 := by
  obtain ⟨hgoing, hdecode⟩ := request?_eq_some_iff.mp h
  unfold turn
  simp only [hgoing, Bool.false_eq_true, if_false]
  rw [hdecode]
  dsimp only
  unfold answer
  dsimp only
  split
  · rename_i bytes sink hsend
    exact ⟨rfl, by rw [hsend]⟩
  · rename_i fault sink hsend
    have hfault : fault.isBackendFailure = false :=
      Sink.isBackendFailure_send (congrArg Prod.fst hsend)
    refine ⟨(terminate_of_not_backend _ _ _ hfault).1, ?_⟩
    dsimp only
    rw [session_terminate, hsend]

/-- A turn that serves none leaves the plant alone, unless it finds the backend failed. -/
theorem plant_turn_of_none (h : session.request? = none) (hnot : ¬session.FailsBackend)
    (plant : State) : (session.turn plant).plant = plant := by
  unfold turn
  split
  · rfl
  rename_i hgoing
  rw [Bool.not_eq_true] at hgoing
  cases hdecode : session.source.decode.1 with
  | ok request =>
      rw [request?_eq_some_iff.mpr ⟨hgoing, hdecode⟩] at h
      cases h
  | error fault =>
      exact (terminate_of_not_backend _ _ _
        (isBackendFailure_of_not_failsBackend hnot hgoing hdecode)).1

/-- A session that nobody stops serves the request that its bytes start with. -/
theorem request?_of_scan {rest : List UInt8} (hshutdown : session.shutdown = .never)
    (hdelivers : session.source.Delivers)
    (hscan : scan session.source.bytes = .request request rest) :
    session.request? = some request := by
  refine request?_eq_some_iff.mpr ⟨by rw [hshutdown]; rfl, ?_⟩
  rw [(Source.decode_of_delivers hdelivers).1, hscan]
  rfl

theorem not_failsBackend_of_request (h : session.request? = some request) :
    ¬session.FailsBackend := by
  rintro ⟨-, length, hfails⟩
  rw [(request?_eq_some_iff.mp h).2] at hfails
  cases hfails

end Session

namespace Facility

variable {facility : Facility} {moves more : List Move}

/-! ### Runs -/

/-- The action that a move serves. -/
def action? (facility : Facility) : Move → Option Action
  | .step => none
  | .turn place => ((facility.session? place).bind Session.request?).map Request.action

theorem action?_turn (facility : Facility) (place : Nat) :
    facility.action? (.turn place) =
      ((facility.session? place).bind Session.request?).map Request.action := rfl

/-- The actions that are served on the way of some moves, in order. -/
def served (facility : Facility) : List Move → List Action
  | [] => []
  | move :: rest => (facility.action? move).toList ++ (facility.after move).served rest

/-- The moves are turns of sessions, and the controller is alive after them if it was before. -/
structure ServesOnly (facility : Facility) (moves : List Move) : Prop where
  noStep : .step ∉ moves
  noCrash : (facility.run moves).plant.controllerRunning = facility.plant.controllerRunning

/-- A run that crashes nothing is made of runs that crash nothing. -/
theorem servesOnly_append (h : facility.ServesOnly (moves ++ more)) :
    facility.ServesOnly moves ∧ (facility.run moves).ServesOnly more := by
  obtain ⟨hstep, hcrash⟩ := h
  rw [List.mem_append, not_or] at hstep
  rw [run_append] at hcrash
  have hfirst := (facility.controllerRunning_run moves).mpr ∘ Or.inl
  have hsecond := ((facility.run moves).controllerRunning_run more).mpr ∘ Or.inl
  -- a dead controller stays dead, so that one alive in the end was alive in between
  have hbetween : (facility.run moves).plant.controllerRunning =
      facility.plant.controllerRunning := by
    cases hrunning : facility.plant.controllerRunning with
    | false => exact hfirst hrunning
    | true =>
        rw [hrunning] at hcrash
        cases hmiddle : (facility.run moves).plant.controllerRunning with
        | false =>
            rw [hsecond hmiddle] at hcrash
            cases hcrash
        | true => rfl
  exact ⟨⟨hstep.1, hbetween⟩, ⟨hstep.2, hcrash.trans hbetween.symm⟩⟩

theorem ServesOnly.cons {move : Move} {rest : List Move} (h : facility.ServesOnly (move :: rest)) :
    move ≠ .step ∧
      (facility.after move).plant.controllerRunning = facility.plant.controllerRunning ∧
      (facility.after move).ServesOnly rest := by
  obtain ⟨hfirst, hrest⟩ := servesOnly_append (show facility.ServesOnly ([move] ++ rest) from h)
  refine ⟨?_, hfirst.noCrash, hrest⟩
  rintro rfl
  exact hfirst.noStep List.mem_cons_self

/-- **What a turn does to the plant is what its request writes**, if it does not crash it. -/
theorem plant_turn {place : Nat} (h : (facility.after (.turn place)).plant.controllerRunning =
    facility.plant.controllerRunning) :
    (facility.after (.turn place)).plant =
      facility.plant.take (lastWrite (facility.action? (.turn place)).toList) := by
  rw [action?_turn]
  cases hsession : facility.session? place with
  | none =>
      rw [after_turn_of_none hsession]
      rfl
  | some session =>
      have hplant : (facility.after (.turn place)).plant = (session.turn facility.plant).plant := by
        rw [after_turn hsession]
      rw [hplant] at h ⊢
      rw [Option.bind_some]
      cases hrequest : session.request? with
      | some request =>
          rw [(Session.turn_of_request hrequest facility.plant).1, serve_eq_take, Option.map_some,
            Option.toList_some, lastWrite_singleton]
      | none =>
          have hkept : (session.turn facility.plant).plant = facility.plant := by
            by_cases hfails : session.FailsBackend
            · -- a failure of the backend that is no crash finds the controller dead
              have hcrash := (Session.turn_of_failsBackend facility.plant hfails).1
              rw [hcrash, State.controllerRunning_crash] at h
              rw [hcrash, State.crash_of_not_running h.symm]
            · exact Session.plant_turn_of_none hrequest hfails facility.plant
          rw [hkept]
          rfl

/-- **A run gives the registers their last writes**, whoever made them. -/
theorem ServesOnly.run_eq_take (h : facility.ServesOnly moves) :
    (facility.run moves).plant = facility.plant.take (lastWrite (facility.served moves)) := by
  induction moves generalizing facility with
  | nil => rfl
  | cons move rest ih =>
      obtain ⟨hstep, hkept, hrest⟩ := h.cons
      cases move with
      | step => exact absurd rfl hstep
      | turn place =>
          rw [run_cons, ih hrest, plant_turn hkept, State.take_take, served, lastWrite_append]

/-- What a register shows after a run. -/
theorem ServesOnly.publish_run (h : facility.ServesOnly moves) (register : Register) :
    (facility.run moves).plant.publish register =
      (lastWrite (facility.served moves) register).getD (facility.plant.publish register) := by
  rw [h.run_eq_take]
  exact State.publish_take _ (fun _ _ => takes_of_lastWrite) register

end Facility

/-! ### What clients read -/

/-- **A read is answered with what the registers show**, and its client finds that in the reply. -/
theorem Session.reply?_read {session : Session} {request : Request} {function : UInt8}
    {start count : UInt16} (h : session.request? = some request)
    (hread : request.action = .read function start count) (plant : State) :
    ∃ reply, session.reply? plant = some reply ∧
      (session.turn plant).session.sink = (session.sink.send reply).2 ∧
      start.toNat + count.toNat ≤ Register.count ∧
      wordsOf? (reply.drop headerLength) =
        some ((plant.registers.toList.drop start.toNat).take count.toNat) := by
  have hsnapshot : (serve plant request.action).2 = plant.registers := by
    rw [hread]
    rfl
  obtain ⟨asked, rfl, -⟩ := Source.exists_frame_of_decode (Session.request?_eq_some_iff.mp h).2
  have hanswers := (asked.repliedBy plant.registers).answers
  have hsink := (Session.turn_of_request h plant).2
  rw [hsnapshot] at hsink
  rw [hread] at hanswers
  refine ⟨asked.request.reply plant.registers, ?_, hsink, ?_⟩
  · rw [Session.reply?, h, Option.map_some, hsnapshot]
  · cases hanswers with
    | read _ _ inBank words => exact ⟨inBank, words⟩

/-- A run of the registers shows each of them at its place. -/
theorem State.registers_getElem?_run (s : State) {start count : Nat} {register : Register}
    (hstart : start ≤ register.index) (hend : register.index < start + count) :
    ((s.registers.toList.drop start).take count)[register.index - start]? =
      some (s.publish register) := by
  have hindex : register.index - start < count := by omega
  rw [List.getElem?_take_of_lt hindex, List.getElem?_drop, Nat.add_sub_cancel' hstart,
    Vector.getElem?_toList, registers_getElem?_index]

namespace Facility

variable {facility : Facility}

/-- The next turn of the session at a place answers a read of `count` registers from `start` on, and
its client finds the given words in the reply. -/
def Reads (facility : Facility) (place : Nat) (start count : UInt16) (words : List UInt16) : Prop :=
  ∃ session request function reply, facility.session? place = some session ∧
    session.request? = some request ∧ request.action = .read function start count ∧
    session.reply? facility.plant = some reply ∧
    (session.turn facility.plant).session.sink = (session.sink.send reply).2 ∧
    wordsOf? (reply.drop headerLength) = some words

/-- Clients that read find some words. -/
theorem exists_reads {place : Nat} {session : Session} {request : Request} {function : UInt8}
    {start count : UInt16} (hsession : facility.session? place = some session)
    (hrequest : session.request? = some request)
    (hread : request.action = .read function start count) :
    ∃ words, facility.Reads place start count words := by
  obtain ⟨reply, hreply, hsink, -, hwords⟩ :=
    Session.reply?_read hrequest hread facility.plant
  exact ⟨_, session, request, function, reply, hsession, hrequest, hread, hreply, hsink, hwords⟩

/-- **What clients read is what the registers show.** -/
theorem Reads.words_eq {place : Nat} {start count : UInt16} {words : List UInt16}
    (h : facility.Reads place start count words) :
    start.toNat + count.toNat ≤ Register.count ∧
      words = (facility.plant.registers.toList.drop start.toNat).take count.toNat := by
  obtain ⟨session, request, function, reply, -, hrequest, hread, hreply, -, hwords⟩ := h
  obtain ⟨found, hfound, -, hbank, hshown⟩ :=
    Session.reply?_read hrequest hread facility.plant
  rw [hreply] at hfound
  cases hfound
  rw [hwords] at hshown
  exact ⟨hbank, Option.some.inj hshown⟩

/-- **The last writer wins, and clients see it.**  While the timer stands still and the controller
does not crash, a read is answered with the last acceptable word for each register that it covers,
whoever wrote it, and with what the register showed at first if there is none, as of every register
that clients cannot write; what is not acceptable changes nothing, so that reads with nothing else
between them find the same words. -/
theorem last_writer_wins (facility : Facility) (moves more : List Move)
    (h : facility.ServesOnly (moves ++ more)) :
    let now := facility.run moves
    let later := facility.run (moves ++ more)
    (∀ place session request function start count, now.session? place = some session →
      session.request? = some request → request.action = .read function start count →
      ∃ words, now.Reads place start count words) ∧
    (∀ place start count words, now.Reads place start count words →
      words.length = count.toNat ∧
      ∀ register, start.toNat ≤ register.index →
        register.index < start.toNat + count.toNat → words[register.index - start.toNat]? =
          some ((lastWrite (facility.served moves) register).getD
            (facility.plant.publish register))) ∧
    (∀ register, register ∉ Register.writable →
      lastWrite (facility.served moves) register = none) ∧
    ((∀ action ∈ now.served more, ∀ register, action.leaves? register = none) →
      later.plant = now.plant ∧
      ∀ place other start count words found, now.Reads place start count words →
        later.Reads other start count found → found = words) := by
  intro now later
  obtain ⟨hnow, hmore⟩ := servesOnly_append h
  refine ⟨fun place session request function start count => exists_reads, ?_,
    fun register hreadOnly => lastWrite_of_not_writable hreadOnly _, ?_⟩
  · intro place start count words hreads
    obtain ⟨hbank, rfl⟩ := hreads.words_eq
    refine ⟨?_, fun register hstart hend => ?_⟩
    · rw [List.length_take, List.length_drop, Vector.length_toList]
      omega
    · rw [State.registers_getElem?_run _ hstart hend, hnow.publish_run]
  · intro hnothing
    have hplant : later.plant = now.plant := by
      have hnone : lastWrite (now.served more) = fun _ => none :=
        funext fun register => lastWrite_of_forall fun action haction =>
          hnothing action haction register
      show (facility.run (moves ++ more)).plant = _
      rw [run_append, hmore.run_eq_take, hnone, State.take_none]
    refine ⟨hplant, fun place other start count words found hreads hfound => ?_⟩
    rw [hreads.words_eq.2, hfound.words_eq.2, hplant]

/-- A client who connects only to send some bytes. -/
def client (bytes : List UInt8) : Session where
  id := 1
  peer := .loopback 1502
  source := .ofString bytes
  sink := {}
  shutdown := .never

/-- One client writes a setpoint, another one that is out of range, and two more read the three
registers that clients write, the first before the second write and the other after it: both find
the first. -/
theorem last_writer_wins_four :
    let writer := client [0, 1, 0, 0, 0, 6, 1, 6, 0, 2, 0, 225]
    let careless := client [0, 1, 0, 0, 0, 6, 1, 6, 0, 2, 1, 145]
    let reader := client [0, 1, 0, 0, 0, 6, 1, 3, 0, 1, 0, 3]
    let facility := start .reference [writer, careless, reader, reader]
    let now := facility.run [.turn 0]
    let later := facility.run [.turn 0, .turn 1]
    facility.ServesOnly ([.turn 0] ++ [.turn 1]) ∧
      ∃ words, now.Reads 2 1 3 words ∧ later.Reads 3 1 3 words ∧ words.length = 3 ∧
        words[1]? = some 225 := by
  intro writer careless reader facility now later
  have hdelivers : ∀ bytes, (client bytes).source.Delivers := fun bytes =>
    Source.delivers_steady bytes none
  have hwriter : writer.request? = some ⟨1, 1, .writeSingle 2 225, 12⟩ :=
    Session.request?_of_scan rfl (hdelivers _) rfl
  have hcareless : careless.request? = some ⟨1, 1, .writeSingle 2 401, 12⟩ :=
    Session.request?_of_scan rfl (hdelivers _) rfl
  have hreader : reader.request? = some ⟨1, 1, .read 3 1 3, 12⟩ :=
    Session.request?_of_scan rfl (hdelivers _) rfl
  -- neither write fails the backend
  have hfirst : (facility.after (.turn 0)).plant.controllerRunning =
      facility.plant.controllerRunning := by
    refine (after_of_not_failsBackend ?_).1
    rintro ⟨_, ⟨⟩, hfails⟩
    exact Session.not_failsBackend_of_request hwriter hfails
  have hsecond : (now.after (.turn 1)).plant.controllerRunning = now.plant.controllerRunning := by
    refine (after_of_not_failsBackend ?_).1
    rintro ⟨_, ⟨⟩, hfails⟩
    exact Session.not_failsBackend_of_request hcareless hfails
  have hserves : facility.ServesOnly ([.turn 0] ++ [.turn 1]) :=
    ⟨by decide, hsecond.trans hfirst⟩
  have hserved : facility.served [.turn 0] = [.writeSingle 2 225] := by
    show Option.toList (writer.request?.map Request.action) ++ [] = _
    rw [hwriter]
    rfl
  have hbetween : now.served [.turn 1] = [.writeSingle 2 401] := by
    show Option.toList (careless.request?.map Request.action) ++ [] = _
    rw [hcareless]
    rfl
  have hnothing : ∀ action ∈ now.served [.turn 1], ∀ register,
    action.leaves? register = none := by
    intro action haction register
    rw [hbetween, List.mem_singleton] at haction
    subst haction
    cases register <;> decide
  obtain ⟨hanswered, hvalues, -, hagree⟩ :=
    last_writer_wins facility [.turn 0] [.turn 1] hserves
  obtain ⟨words, hreads⟩ := hanswered 2 reader _ 3 1 3 rfl hreader rfl
  obtain ⟨found, hfound⟩ : ∃ found, later.Reads 3 1 3 found := exists_reads rfl hreader rfl
  have hsame := (hagree hnothing).2 2 3 1 3 words found hreads hfound
  obtain ⟨hlength, hword⟩ := hvalues 2 1 3 words hreads
  have hsetpoint := hword .setpoint (by decide) (by decide)
  rw [hserved] at hsetpoint
  exact ⟨hserves, words, hreads, hsame ▸ hfound, hlength, hsetpoint⟩

end Facility

end HeatingPlant
