import HeatingPlant.Proofs.Modbus.Decoding

/-!
# Replies and their clients

What a client can do with the replies that it gets: cut the stream by the length fields, tell whose
reply it holds, and read the words that it asked for.

## Main definitions

* `wordsOf?`, `cutFrames` — the client's side: the words of an answered read, and a stream cut by
  its length fields
* `Answers` — a data unit answers another that asked for an action
* `Request.RepliedBy` — bytes are the reply to a request
* `Request.Decodable` — a request that decoding can come to

## Main statements

* `Verdict.answers`, `Verdict.length_reply`, `Verdict.refuses` — the data unit of a reply, from
  the verdict on the one that asked
* `Frame.exists_reply`, `Frame.repliedBy` — a reply is a legal frame itself, and answers its
  request
* `cutFrames_frames` — a run of legal frames is cut into them
* `Request.replied` — the reply to a decoded request is taken whole, is its reply, and is found in
  any run of replies

## Design notes

A reply has the shape of a request, so that what is known of frames says where it ends.  Whether its
data unit answers is a matter of the verdict on the one that asked: a read of words that the bank
lacks, or a run of values too long to be counted, never gets past it.
-/

namespace HeatingPlant.Modbus

/-! ### The client's side -/

/-- The words that a client finds in the answer to a read: those of its bytes, if these are as many
as the byte count says. -/
def wordsOf? : List UInt8 → Option (List UInt16)
  | _ :: byteCount :: data =>
    if data.length = byteCount.toNat ∧ data.length % 2 = 0 then some (Word.listOfBytes data)
    else none
  | _ => none

/-- A stream of frames as a client cuts it by the length fields, and what is left of it. -/
def cutFrames (bytes : List UInt8) : List (List UInt8) × List UInt8 :=
  let length := 6 + (wordAt bytes 4).toNat
  if length ≤ bytes.length then
    let (frames, rest) := cutFrames (bytes.drop length)
    (bytes.take length :: frames, rest)
  else ([], bytes)
termination_by bytes.length
decreasing_by
  rw [List.length_drop]
  omega

/-- A data unit answers another that asked for an action, from a snapshot of the bank. -/
inductive Answers (registers : Registers) (asked : List UInt8) : Action → List UInt8 → Prop
  /-- The function is echoed, and the words are those that were asked for, all of them. -/
  | read {function : UInt8} {start count : UInt16} {pdu : List UInt8}
      (asks : asked.head? = some function) (echoes : pdu.head? = some function)
      (inBank : start.toNat + count.toNat ≤ Register.count)
      (words : wordsOf? pdu = some ((registers.toList.drop start.toNat).take count.toNat)) :
      Answers registers asked (.read function start count) pdu
  /-- The whole request is echoed. -/
  | writeSingle {address value : UInt16} :
      Answers registers asked (.writeSingle address value) asked
  /-- The function and the start are echoed, and the number of values comes after them. -/
  | writeMultiple {start number : UInt16} {values : List UInt16}
      (asks : asked.head? = some writeMultipleCode) (counts : number.toNat = values.length) :
      Answers registers asked (.writeMultiple start values)
        (writeMultipleCode :: Word.toBytes start ++ Word.toBytes number)
  /-- The function is echoed with its top bit set, and the exception comes after it. -/
  | reject {function : UInt8} {exception : ExceptionCode} (asks : asked.head? = some function) :
      Answers registers asked (.reject function exception) [function ||| 0x80, exception.code]

/-- Bytes are the reply to a request that `asked` for its action. -/
structure Request.RepliedBy (request : Request) (registers : Registers) (asked reply : List UInt8) :
    Prop where
  length_ge : 9 ≤ reply.length
  length_le : reply.length ≤ 29
  /-- The transaction is that of the request. -/
  transaction : wordAt reply 0 = request.transaction
  protocol : wordAt reply 2 = 0
  /-- The length field counts all bytes after it. -/
  length : (wordAt reply 4).toNat = reply.length - 6
  /-- The unit is that of the request. -/
  unit : reply[6]? = some request.unit
  /-- The top bit of the function byte tells a refusal from an answer. -/
  refuses : (∃ function, reply[7]? = some function ∧ function.toNat.testBit 7 = true) ↔
    ∃ function exception, request.action = .reject function exception
  answers : Answers registers asked request.action (reply.drop headerLength)

/-! ### Data units -/

/-- A read in range is answered with its words. -/
theorem Action.reply_read (function : UInt8) {start count : UInt16} (registers : Registers)
    (h : start.toNat + count.toNat ≤ Register.count) :
    ∃ values, (registers.toList.drop start.toNat).take count.toNat = values ∧
      values.length = count.toNat ∧
      (Action.read function start count).reply registers =
        function :: UInt8.ofNat (2 * count.toNat) :: Word.listToBytes values := by
  have hlength : ((registers.toList.drop start.toNat).take count.toNat).length = count.toNat := by
    rw [List.length_take, List.length_drop, Vector.length_toList]
    omega
  refine ⟨_, rfl, hlength, ?_⟩
  rw [Action.reply, readRange?, if_pos h]
  dsimp only
  rw [hlength]

/-- The words of such an answer are read back. -/
theorem wordsOf?_listToBytes (function : UInt8) {values : List UInt16}
    (h : values.length ≤ Register.count) :
    wordsOf? (function :: UInt8.ofNat (2 * values.length) :: Word.listToBytes values) =
      some values := by
  have hten : Register.count = 10 := rfl
  have hbytes : (UInt8.ofNat (2 * values.length)).toNat = 2 * values.length := by
    rw [UInt8.toNat_ofNat']
    omega
  rw [wordsOf?, hbytes, Word.length_listToBytes, Word.listOfBytes_listToBytes,
    if_pos ⟨rfl, Nat.mul_mod_right 2 _⟩]

theorem testBit_exceptionPdu (function : UInt8) : (function ||| 0x80).toNat.testBit 7 = true := by
  rw [UInt8.toNat_or, Nat.testBit_or]
  exact Bool.or_true _

/-- A refusal sets the top bit of its first byte. -/
theorem refuses_exceptionPdu (function : UInt8) (exception : ExceptionCode) :
    (∃ first, (exceptionPdu function exception).head? = some first ∧
        first.toNat.testBit 7 = true) ↔
      ∃ other reason, Action.reject function exception = .reject other reason :=
  iff_of_true ⟨_, rfl, testBit_exceptionPdu function⟩ ⟨function, exception, rfl⟩

/-- An answer to an action in range leaves it clear. -/
theorem refuses_of_inRange {first : UInt8} {rest : List UInt8} {action : Action}
    (inRange : action.InRange) (hclear : first.toNat.testBit 7 = false) :
    (∃ found, (first :: rest).head? = some found ∧ found.toNat.testBit 7 = true) ↔
      ∃ function exception, action = .reject function exception := by
  refine iff_of_false ?_ ?_
  · rintro ⟨_, ⟨⟩, hset⟩
    rw [hclear] at hset
    cases hset
  · rintro ⟨_, _, rfl⟩
    exact inRange

namespace Verdict

variable {function : UInt8} {body : List UInt8} {action : Action}

/-- **The data unit of a reply answers the one that asked.** -/
theorem answers (h : Verdict function body action) (registers : Registers) :
    Answers registers (function :: body) action (action.reply registers) := by
  cases h with
  | accepted inRange asks =>
      cases action with
      | read asked start count =>
          obtain ⟨-, -, hbank⟩ := inRange
          obtain ⟨values, hvalues, hlength, hreply⟩ :=
            Action.reply_read asked registers hbank
          cases asks
          rw [hreply, ← hlength]
          refine .read rfl rfl hbank ?_
          rw [wordsOf?_listToBytes _ (by omega), hvalues]
      | writeSingle address value =>
          cases asks
          exact .writeSingle
      | writeMultiple start values =>
          have hten : Register.count = 10 := rfl
          obtain ⟨-, hbank⟩ := inRange
          have hcount : (UInt16.ofNat values.length).toNat = values.length := by
            rw [UInt16.toNat_ofNat']
            omega
          cases asks
          exact .writeMultiple rfl hcount
      | reject => exact inRange.elim
  | unsupported => exact .reject rfl
  | missized => exact .reject rfl
  | outside => exact .reject rfl

/-- It is two bytes at least, and at most those of the whole bank. -/
theorem length_reply (h : Verdict function body action) (registers : Registers) :
    2 ≤ (action.reply registers).length ∧ (action.reply registers).length ≤ 22 := by
  have hfixed : ∀ n, n = 2 ∨ n = 5 → 2 ≤ n ∧ n ≤ 22 := by
    omega
  cases h with
  | accepted inRange asks =>
      cases action with
      | read asked start count =>
          have hten : Register.count = 10 := rfl
          obtain ⟨-, -, hbank⟩ := inRange
          obtain ⟨values, -, hlength, hreply⟩ := Action.reply_read asked registers hbank
          rw [hreply, List.length_cons, List.length_cons, Word.length_listToBytes, hlength]
          omega
      | writeSingle => exact hfixed _ (.inr rfl)
      | writeMultiple => exact hfixed _ (.inr rfl)
      | reject => exact inRange.elim
  | unsupported => exact hfixed _ (.inl rfl)
  | missized => exact hfixed _ (.inl rfl)
  | outside => exact hfixed _ (.inl rfl)

/-- **Its top bit tells whether the request was refused.** -/
theorem refuses (h : Verdict function body action) (registers : Registers) :
    (∃ first, (action.reply registers).head? = some first ∧ first.toNat.testBit 7 = true) ↔
      ∃ function exception, action = .reject function exception := by
  cases h with
  | accepted inRange asks =>
      cases action with
      | read asked start count =>
          obtain ⟨values, -, -, hreply⟩ := Action.reply_read asked registers inRange.2.2
          rw [hreply]
          refine refuses_of_inRange inRange ?_
          rcases inRange.1 with rfl | rfl <;> rfl
      | writeSingle => exact refuses_of_inRange inRange rfl
      | writeMultiple => exact refuses_of_inRange inRange rfl
      | reject => exact inRange.elim
  | unsupported => exact refuses_exceptionPdu function _
  | missized => exact refuses_exceptionPdu function _
  | outside => exact refuses_exceptionPdu function _

end Verdict

/-! ### Frames -/

/-- The fields of a frame, where they are. -/
theorem Frame.fields (f : Frame) :
    wordAt f.toBytes 0 = f.transaction ∧ wordAt f.toBytes 2 = 0 ∧
      (wordAt f.toBytes 4).toNat = f.toBytes.length - 6 ∧ f.toBytes[6]? = some f.unit := by
  have hlength := f.wordAt_toBytes_append []
  rw [List.append_nil] at hlength
  exact ⟨Word.ofBytes_toBytes _, Word.ofBytes_toBytes 0, by omega, rfl⟩

theorem cutFrames_append (f : Frame) (rest : List UInt8) :
    cutFrames (f.toBytes ++ rest) = (f.toBytes :: (cutFrames rest).1, (cutFrames rest).2) := by
  rw [cutFrames, f.wordAt_toBytes_append, if_pos (by rw [List.length_append]; omega),
    List.take_left' rfl, List.drop_left' rfl]

/-- **A run of legal frames is cut into them.** -/
theorem cutFrames_frames (frames : List Frame) :
    cutFrames (frames.flatMap Frame.toBytes) = (frames.map Frame.toBytes, []) := by
  induction frames with
  | nil =>
      rw [List.flatMap_nil, cutFrames]
      rfl
  | cons f frames ih => rw [List.flatMap_cons, cutFrames_append, ih, List.map_cons]

namespace Frame

theorem verdict_request (f : Frame) : Verdict f.function f.body f.request.action :=
  Action.verdict_ofPdu f.function f.body

/-- **A reply is a legal frame**, of the transaction and the unit of its request. -/
theorem exists_reply (asked : Frame) (registers : Registers) :
    ∃ f : Frame, asked.request.reply registers = f.toBytes ∧
      f.transaction = asked.transaction ∧
      f.unit = asked.unit ∧ f.function :: f.body = asked.request.action.reply registers := by
  have hlargest : largestPdu = 253 := rfl
  obtain ⟨hpos, hmost⟩ := asked.verdict_request.length_reply registers
  cases hreply : asked.request.action.reply registers with
  | nil =>
      rw [hreply] at hpos
      cases hpos
  | cons function body =>
      rw [hreply, List.length_cons] at hmost
      refine ⟨⟨asked.transaction, asked.unit, function, body, by omega⟩, ?_, rfl, rfl, rfl⟩
      rw [Request.reply, hreply]
      rfl

/-- **It is the reply to the request**, by every field. -/
theorem repliedBy (asked : Frame) (registers : Registers) :
    asked.request.RepliedBy registers (asked.function :: asked.body)
      (asked.request.reply registers) := by
  obtain ⟨f, hreply, htransaction, hunit, hpdu⟩ := asked.exists_reply registers
  obtain ⟨hfirst, hprotocol, hlength, hsixth⟩ := f.fields
  have hrefuses := asked.verdict_request.refuses registers
  obtain ⟨hpos, hmost⟩ := asked.verdict_request.length_reply registers
  have htotal := f.length_toBytes
  rw [← hpdu] at hrefuses
  rw [← hpdu, List.length_cons] at hpos hmost
  rw [hreply]
  refine ⟨by omega, by omega, hfirst.trans htransaction, hprotocol, hlength,
    hsixth.trans (congrArg some hunit), hrefuses, ?_⟩
  rw [f.toBytes_eq, Header.drop_toBytes_append, hpdu]
  exact asked.verdict_request.answers registers

end Frame

namespace Request

/-- A request that decoding can come to, from some source. -/
def Decodable (request : Request) : Prop := ∃ source : Source, source.decode.1 = .ok request

/-- A run of replies is a run of legal frames. -/
theorem exists_frames {exchanges : List (Request × Registers)}
    (h : ∀ exchange ∈ exchanges, exchange.1.Decodable) :
    ∃ frames : List Frame,
      frames.map Frame.toBytes = exchanges.map fun exchange => exchange.1.reply exchange.2 := by
  induction exchanges with
  | nil => exact ⟨[], rfl⟩
  | cons exchange exchanges ih =>
      obtain ⟨frames, hframes⟩ := ih fun later hlater => h later (List.mem_cons_of_mem _ hlater)
      obtain ⟨source, hsource⟩ := h exchange List.mem_cons_self
      obtain ⟨asked, hasked, -⟩ := Source.exists_frame_of_decode hsource
      obtain ⟨f, hf, -⟩ := asked.exists_reply exchange.2
      refine ⟨f :: frames, ?_⟩
      rw [List.map_cons, List.map_cons, hframes, hasked, hf]

/-- **Replies are well-formed, and clients can read them.**  The reply to a decoded request is taken
whole by a sink that never fails, and is its reply, by every field; and any run of replies is cut
into them again by the length fields alone. -/
theorem replied {source : Source} {request : Request} (hrequest : source.decode.1 = .ok request)
    (registers : Registers) {sink : Sink} (hsink : sink.NeverFails) :
    sink.send (request.reply registers) =
        (.ok (request.reply registers).length, sink.take (request.reply registers)) ∧
      request.RepliedBy registers ((source.bytes.take request.wireLength).drop headerLength)
        (request.reply registers) ∧
      ∀ exchanges : List (Request × Registers),
        (∀ exchange ∈ exchanges, exchange.1.Decodable) →
        cutFrames (exchanges.flatMap fun exchange => exchange.1.reply exchange.2) =
          (exchanges.map fun exchange => exchange.1.reply exchange.2, []) := by
  refine ⟨Sink.send_of_neverFails hsink _, ?_, fun exchanges hdecodable => ?_⟩
  · obtain ⟨asked, rfl, hbytes⟩ := Source.exists_frame_of_decode hrequest
    have hwire : asked.toBytes.length = asked.request.wireLength := rfl
    have hasked : (source.bytes.take asked.request.wireLength).drop headerLength =
        asked.function :: asked.body := by
      rw [hbytes, List.take_left' hwire, asked.toBytes_eq, Header.drop_toBytes_append]
    rw [hasked]
    exact asked.repliedBy registers
  · obtain ⟨frames, hframes⟩ := exists_frames hdecodable
    rw [List.flatMap_def, ← hframes, ← List.flatMap_def, cutFrames_frames]

/-- A read of the valve command and the setpoint, and an unsupported function after it: the words
are in the reply, and the two replies are told apart. -/
theorem replied_read :
    let registers : Registers := #v[215, 40, 210, 1, 65486, 0, 38, 352, 1207, 152]
    let source := Source.ofString [0, 7, 0, 0, 0, 6, 17, 3, 0, 1, 0, 2]
    let other := Source.ofString [0, 8, 0, 0, 0, 2, 17, 43]
    let request : Request := ⟨7, 17, .read 3 1 2, 12⟩
    let refused : Request := ⟨8, 17, .reject 43 .illegalFunction, 8⟩
    let sink : Sink := {}
    source.decode.1 = .ok request ∧ other.decode.1 = .ok refused ∧ sink.NeverFails ∧
      sink.send (request.reply registers) = (.ok 13, sink.take (request.reply registers)) ∧
      request.RepliedBy registers [3, 0, 1, 0, 2] (request.reply registers) ∧
      cutFrames (request.reply registers ++ refused.reply registers) =
        ([[0, 7, 0, 0, 0, 7, 17, 3, 4, 0, 40, 0, 210], [0, 8, 0, 0, 0, 3, 17, 171, 1]], []) := by
  intro registers source other request refused sink
  have hrequest : source.decode.1 = .ok request :=
    (Source.decode_of_delivers (Source.delivers_steady _ _)).1
  have hrefused : other.decode.1 = .ok refused :=
    (Source.decode_of_delivers (Source.delivers_steady _ _)).1
  have hsink : sink.NeverFails := ⟨nofun, rfl, rfl⟩
  obtain ⟨hsend, hreply, hcut⟩ := replied hrequest registers hsink
  refine ⟨hrequest, hrefused, hsink, hsend, hreply, ?_⟩
  have hdecodable : ∀ exchange ∈ [(request, registers), (refused, registers)],
      exchange.1.Decodable := by
    intro exchange hmem
    simp only [List.mem_cons, List.not_mem_nil, or_false] at hmem
    obtain rfl | rfl := hmem
    · exact ⟨source, hrequest⟩
    · exact ⟨other, hrefused⟩
  have hfirst : request.reply registers = [0, 7, 0, 0, 0, 7, 17, 3, 4, 0, 40, 0, 210] := by decide
  have hsecond : refused.reply registers = [0, 8, 0, 0, 0, 3, 17, 171, 1] := by decide
  have hfound := hcut _ hdecodable
  rw [List.flatMap_cons, List.flatMap_cons, List.flatMap_nil, List.append_nil] at hfound
  rw [hfound, List.map_cons, List.map_cons, List.map_nil, hfirst, hsecond]

end Request

end HeatingPlant.Modbus
