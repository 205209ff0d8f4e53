import HeatingPlant.Proofs.Careful.Requests
import HeatingPlant.Proofs.Modbus.Replies
import HeatingPlant.Session

/-!
# Requests are served without a mishap

A request that was read is served and answered: its words are written one after the other, and the
sizes that the answer tells are cut to one or two bytes.  None of this looks at the bank again;
what it needs is what the request was accepted for.  Here the serving is done in operations that
may go wrong, and none of them does.

## Main definitions

* `Action.StaysInBank` — what an action reads or writes lies in the bank
* `serveCarefully`, `Request.replyCarefully` — a request served, and its reply
* `Session.turnCarefully` — one pass of the request loop
* `Session.RunsCarefully` — the loop, up to the end of the session

## Main statements

* `Verdict.staysInBank` — a request that is read stays in the bank, or is refused
* `serveCarefully_eq`, `Frame.replyCarefully_eq` — then it is served and answered without a mishap
* `Session.turnCarefully_eq`, `Session.runsCarefully_run` — so is whatever comes next in a
  session, to its end
* `requests_without_mishap` — all of it together, with the lengths that are computed on the way

## Design notes

A read beyond the bank would be refused once more when it is answered.  A write is not looked at
again: the reply to a run of more words than a word can count would tell another number
(`Action.replyCarefully_of_long`).  What keeps it exact is the range that was checked when the
request was read.
-/

namespace HeatingPlant

open Modbus

/-! ### What an accepted request stays in -/

namespace Modbus

/-- What an action reads or writes lies in the bank; a refusal does neither. -/
def Action.StaysInBank : Action → Prop
  | read _ start count => start.toNat + count.toNat ≤ Register.count
  | writeSingle address _ => address.toNat < Register.count
  | writeMultiple start values => start.toNat + values.length ≤ Register.count
  | reject .. => True

/-- **A request that is read stays in the bank, or is refused.** -/
theorem Verdict.staysInBank {function : UInt8} {body : List UInt8} {action : Action}
    (h : Verdict function body action) : action.StaysInBank := by
  cases h with
  | accepted inRange =>
      cases action with
      | read => exact inRange.2.2
      | writeSingle => exact inRange
      | writeMultiple => exact inRange.2
      | reject => exact inRange.elim
  | unsupported | missized | outside => trivial

theorem Action.StaysInBank.written {action : Action} (h : action.StaysInBank) {start : Nat}
    {words : List UInt16} (hwritten : action.written = some (start, words)) :
    start + words.length ≤ Register.count := by
  cases action with
  | read | reject => cases hwritten
  | writeSingle | writeMultiple =>
      cases hwritten
      exact h

end Modbus

/-! ### Writes -/

/-- The state after one word of a run was written, at its place from the start of the run on. -/
def State.writePlaceCarefully (start : Nat) (s : State) (place : UInt16 × Nat) :
    Careful State := do
  let index ← Careful.size (start + place.2)
  return s.writeRegister index place.1

/-- The state after a run of words was written from `start` on. -/
def State.writeBlockCarefully (s : State) (start : Nat) (words : List UInt16) : Careful State :=
  words.zipIdx.foldlM (writePlaceCarefully start) s

/-- What a request does to the plant, and the register snapshot that its reply is built from. -/
def serveCarefully (s : State) (action : Action) : Careful (State × Registers) := do
  let next ←
    match action.written with
    | some (start, words) => s.writeBlockCarefully start words
    | none => pure s
  return (next, next.registers)

/-- Words are written place by place as in a run, as long as their positions are sizes. -/
theorem State.foldlM_writePlaceCarefully (s : State) {start offset : Nat} {words : List UInt16}
    (h : start + offset + words.length ≤ Careful.largestSize) :
    (words.zipIdx offset).foldlM (writePlaceCarefully start) s =
      .ok (s.writeBlock (start + offset) words) := by
  induction words generalizing s offset with
  | nil => rfl
  | cons word rest ih =>
      rw [List.length_cons] at h
      have hword : s.writePlaceCarefully start (word, offset) =
          .ok (s.writeRegister (start + offset) word) := by
        rw [writePlaceCarefully, Careful.size_eq (n := start + offset) (by omega) (by omega),
          Careful.ok_bind]
        rfl
      rw [List.zipIdx_cons, List.foldlM_cons, hword, Careful.ok_bind, ih _ (by omega),
        writeBlock_cons]
      rfl

theorem serveCarefully_eq (s : State) {action : Action} (h : action.StaysInBank) :
    serveCarefully s action = .ok (serve s action) := by
  have hten : Register.count = 10 := rfl
  have hsize : Careful.largestSize = 4294967295 := rfl
  unfold serveCarefully serve
  cases hwritten : action.written with
  | none => rfl
  | some block =>
      obtain ⟨start, words⟩ := block
      have hroom := h.written hwritten
      have hwrite : s.writeBlockCarefully start words = .ok (s.writeBlock start words) :=
        s.foldlM_writePlaceCarefully (by omega)
      dsimp only
      rw [hwrite]
      rfl

/-! ### Replies -/

namespace Modbus

/-- The registers between two positions of the bank, if these are in order and within it. -/
def registersBetween? (registers : Registers) (start stop : Nat) : Option (List UInt16) :=
  if start ≤ stop ∧ stop ≤ Register.count then some (registers.toList.extract start stop)
  else none

/-- The data unit that answers an action from a snapshot of the bank. -/
def Action.replyCarefully (registers : Registers) : Action → Careful (List UInt8)
  | read function start count => do
    let stop ← Careful.size (start.toNat + count.toNat)
    match registersBetween? registers start.toNat stop with
    | none => pure (exceptionPdu function .illegalDataAddress)
    | some words => do
      let bytes ← Careful.size (words.length * 2)
      let _capacity ← Careful.size (2 + bytes)
      let byteCount ← Careful.byte bytes
      return function :: byteCount :: Word.listToBytes words
  | writeSingle address value =>
    pure (writeSingleCode :: Word.toBytes address ++ Word.toBytes value)
  | writeMultiple start words => do
    let number ← Careful.word words.length
    return writeMultipleCode :: Word.toBytes start ++ Word.toBytes number
  | reject function exception => pure (exceptionPdu function exception)

/-- The frame around a data unit. -/
def frameCarefully (transaction : UInt16) (unit : UInt8) (pdu : List UInt8) :
    Careful (List UInt8) := do
  let _capacity ← Careful.size (headerLength + pdu.length)
  let declared ← Careful.size (pdu.length + 1)
  let length ← Careful.word declared
  return Header.toBytes ⟨transaction, 0, length, unit⟩ ++ pdu

/-- The frame that answers a request. -/
def Request.replyCarefully (request : Request) (registers : Registers) : Careful (List UInt8) := do
  let pdu ← request.action.replyCarefully registers
  frameCarefully request.transaction request.unit pdu

theorem registersBetween?_add (registers : Registers) (start count : Nat) :
    registersBetween? registers start (start + count) = readRange? registers start count := by
  simp only [registersBetween?, readRange?, List.extract_eq_take_drop, Nat.add_sub_cancel_left,
    Nat.le_add_right, true_and]

/-- **The sizes in the answer to an action that stays in the bank are exact**, from any
registers. -/
theorem Action.replyCarefully_eq {action : Action} (h : action.StaysInBank)
    (registers : Registers) :
    action.replyCarefully registers = .ok (action.reply registers) := by
  have hten : Register.count = 10 := rfl
  have hsize : Careful.largestSize = 4294967295 := rfl
  cases action with
  | read function start count =>
      obtain ⟨words, hwords, hlength, hreply⟩ := Action.reply_read function registers h
      have hroom : start.toNat + count.toNat ≤ Register.count := h
      have hrange :
        registersBetween? registers start.toNat (start.toNat + count.toNat) = some words := by
        rw [registersBetween?_add, readRange?, if_pos hroom, hwords]
      rw [hreply, ← hlength, Action.replyCarefully, size_run, Careful.ok_bind, hrange]
      dsimp only
      rw [Careful.size_eq (n := 2 * words.length) (by omega) (by omega), Careful.ok_bind,
        Careful.size_eq (n := 2 + 2 * words.length) (by omega) (by omega), Careful.ok_bind,
        Careful.byte_eq (by omega) (by omega)]
      rfl
  | writeSingle | reject => rfl
  | writeMultiple start words =>
      have hroom : start.toNat + words.length ≤ Register.count := h
      rw [Action.replyCarefully, Careful.word_eq (by omega) (by omega)]
      rfl

/-- A run of more words than a word can count would be miscounted. -/
theorem Action.replyCarefully_of_long (registers : Registers) (start : UInt16) {words : List UInt16}
    (h : 65535 < words.length) :
    (Action.writeMultiple start words).replyCarefully registers = .error .truncated := by
  have hcut : Careful.word words.length = .error .truncated := by
    rw [Careful.word, Careful.within, if_neg (by omega)]
    rfl
  rw [Action.replyCarefully, hcut]
  rfl

theorem frameCarefully_eq (transaction : UInt16) (unit : UInt8) {pdu : List UInt8}
    (h : pdu.length < 65535) :
    frameCarefully transaction unit pdu = .ok (frame transaction unit pdu) := by
  have hheader : headerLength = 7 := rfl
  have hsize : Careful.largestSize = 4294967295 := rfl
  rw [frameCarefully, Careful.size_eq (n := headerLength + pdu.length) (by omega) (by omega),
    Careful.ok_bind, Careful.size_eq (n := pdu.length + 1) (by omega) (by omega), Careful.ok_bind,
    Careful.word_eq (by omega) (by omega)]
  rfl

/-- **The reply to the request of a frame is built without a mishap**, from any registers. -/
theorem Frame.replyCarefully_eq (asked : Frame) (registers : Registers) :
    asked.request.replyCarefully registers = .ok (asked.request.reply registers) := by
  have hbank := asked.verdict_request.staysInBank
  obtain ⟨-, hmost⟩ := asked.verdict_request.length_reply registers
  rw [Request.replyCarefully, Action.replyCarefully_eq hbank, Careful.ok_bind,
    frameCarefully_eq _ _ (by omega)]
  rfl

end Modbus

/-! ### Sessions -/

namespace Session

/-- A request served and answered. -/
def answerCarefully (session : Session) (plant : State) (request : Request) : Careful Turn := do
  let (plant, registers) ← serveCarefully plant request.action
  let reply ← request.replyCarefully registers
  let received : Notice := .received session.id request.wireLength
  return match session.sink.send reply with
    | (.ok bytes, sink) =>
      ⟨none, { session with sink := sink, served := session.served + 1 }, plant,
        [received, .sent session.id bytes]⟩
    | (.error fault, sink) =>
      let last := terminate { session with sink := sink } plant .replying fault
      { last with notices := received :: last.notices }

/-- One turn of the request loop. -/
def turnCarefully (session : Session) (plant : State) : Careful Turn :=
  if session.shutdown.raised session.served .polling session.source.drained then
    pure ⟨some .shutdown, session, plant, []⟩
  else do
    let (found, source) ← session.source.decodeCarefully
    let session' := { session with source := source }
    match found with
    | .error fault => pure (session'.terminate plant .reading fault)
    | .ok request => session'.answerCarefully plant request

/-- A session goes from a plant to an outcome, and no turn of it meets with a mishap. -/
inductive RunsCarefully : Session → State → Outcome → Prop
  /-- The turn that ends the session. -/
  | last {session : Session} {plant : State} {turn : Turn} {finish : SessionEnd}
      (turns : session.turnCarefully plant = .ok turn) (ends : turn.finish = some finish) :
      RunsCarefully session plant ⟨finish, turn.session, turn.plant, turn.notices⟩
  /-- A turn with more of them to come. -/
  | more {session : Session} {plant : State} {turn : Turn} {later : Outcome}
      (turns : session.turnCarefully plant = .ok turn) (goesOn : turn.finish = none)
      (runs : RunsCarefully turn.session turn.plant later) :
      RunsCarefully session plant { later with notices := turn.notices ++ later.notices }

/-- The request of a frame is answered without a mishap, whether or not its reply can be sent. -/
theorem answerCarefully_eq (session : Session) (plant : State) (asked : Frame) :
    session.answerCarefully plant asked.request = .ok (session.answer plant asked.request) := by
  rw [answerCarefully, serveCarefully_eq plant asked.verdict_request.staysInBank, Careful.ok_bind]
  dsimp only
  rw [asked.replyCarefully_eq]
  rfl

/-- **A turn of a session meets with no mishap**, whatever its source, its sink and the plant. -/
theorem turnCarefully_eq (session : Session) (plant : State) :
    session.turnCarefully plant = .ok (session.turn plant) := by
  unfold turnCarefully turn
  split
  · rfl
  rw [Source.decodeCarefully_eq, Careful.ok_bind]
  have hframe := @Source.exists_frame_of_decode session.source
  generalize session.source.decode = decoded at hframe ⊢
  obtain ⟨fault | request, rest⟩ := decoded
  · rfl
  · obtain ⟨asked, rfl, -⟩ := hframe rfl
    exact answerCarefully_eq _ plant asked

/-- **A session meets with no mishap from its start to its end.** -/
theorem runsCarefully_run (session : Session) (plant : State) :
    session.RunsCarefully plant (session.run plant) := by
  fun_induction run session plant with
  | case1 session plant finish last plant' notices hturn =>
      have hcareful := session.turnCarefully_eq plant
      rw [hturn] at hcareful
      exact .last hcareful rfl
  | case2 session plant next plant' notices hturn later ih =>
      have hcareful := session.turnCarefully_eq plant
      rw [hturn] at hcareful
      exact .more hcareful rfl ih

end Session

/-- **Requests meet with no mishap.**  Where the length of a body is computed, it is that of a
data unit, from 1 to 253 bytes.  A data unit with a function byte is read, whatever its function
and its length, and so is the next request, whatever its source.  A request that was read stays in
the bank; it is served on any state, and answered from any registers.  So a session runs from its
start to its end without a mishap. -/
theorem requests_without_mishap :
    (∀ header : Header, header.bodyLengthCarefully = .ok header.bodyLength ∧
      ∀ n, header.bodyLength = .ok n → 1 ≤ n ∧ n ≤ 253) ∧
    (∀ (function : UInt8) (body : List UInt8),
      Action.ofPduCarefully (function :: body) = .ok (Action.ofPdu function body)) ∧
    (∀ source : Source, source.decodeCarefully = .ok source.decode ∧
      ∀ request, source.decode.1 = .ok request →
        request.action.StaysInBank ∧
          ∀ (s : State) (registers : Registers),
            serveCarefully s request.action = .ok (serve s request.action) ∧
              request.replyCarefully registers = .ok (request.reply registers)) ∧
    ∀ (session : Session) (plant : State), session.RunsCarefully plant (session.run plant) := by
  refine ⟨fun header => ⟨header.bodyLengthCarefully_eq, fun n hn => ?_⟩,
    Action.ofPduCarefully_cons,
    fun source => ⟨source.decodeCarefully_eq, fun request hrequest => ?_⟩,
    Session.runsCarefully_run⟩
  · obtain ⟨-, hpos, hmost, -⟩ := Header.bodyLength_eq_ok_iff.mp hn
    exact ⟨hpos, hmost⟩
  · obtain ⟨asked, rfl, -⟩ := Source.exists_frame_of_decode hrequest
    have hbank := asked.verdict_request.staysInBank
    exact ⟨hbank, fun s registers =>
      ⟨serveCarefully_eq s hbank, asked.replyCarefully_eq registers⟩⟩

/-- The setpoint and the mode written in one request: its body of ten bytes is read, both words
are written, and the reply counts them, whatever the registers show. -/
theorem requests_without_mishap_write :
    let source := Source.ofString [0, 9, 0, 0, 0, 11, 1, 16, 0, 2, 0, 2, 4, 0, 210, 0, 1]
    let header : Header := ⟨9, 0, 11, 1⟩
    let request : Request := ⟨9, 1, .writeMultiple 2 [210, 1], 17⟩
    header.bodyLengthCarefully = .ok (.ok 10) ∧
      source.decode.1 = .ok request ∧
      request.action.StaysInBank ∧
      ∀ (s : State) (registers : Registers),
        serveCarefully s request.action = .ok (serve s request.action) ∧
          request.replyCarefully registers = .ok [0, 9, 0, 0, 0, 6, 1, 16, 0, 2, 0, 2] := by
  intro source header request
  have hrequest : source.decode.1 = .ok request :=
    (Source.decode_of_delivers (Source.delivers_steady _ _)).1
  obtain ⟨hheaders, -, hsources, -⟩ := requests_without_mishap
  obtain ⟨hbank, hserved⟩ := (hsources source).2 request hrequest
  have hreply : ∀ registers, request.reply registers = [0, 9, 0, 0, 0, 6, 1, 16, 0, 2, 0, 2] := by
    intro registers
    show frame 9 1 (writeMultipleCode :: Word.toBytes 2 ++ Word.toBytes 2) = _
    decide
  refine ⟨(hheaders header).1, hrequest, hbank, fun s registers => ?_⟩
  rw [← hreply registers]
  exact hserved s registers

end HeatingPlant
