import HeatingPlant.Proofs.Careful.Operations
import HeatingPlant.Proofs.Modbus.Decoding

/-!
# Requests are read without a mishap

Bytes become a request by positions: the fields of the header, the function byte, the words of the
body.  Each access is kept in the buffer by a test that comes before it, often in another
function.  Here the reading is done in operations that may go wrong, and none of them does.

## Main definitions

* `Header.ofBytesCarefully`, `Header.bodyLengthCarefully` — the header and the number of bytes
  after it
* `Action.ofPduCarefully` — the action that a data unit asks for
* `Source.decodeCarefully` — the next request of a source

## Main statements

* `Header.bodyLengthCarefully_eq` — no length of a body goes below zero
* `Action.ofPduCarefully_cons` — a data unit with a function byte is read without a mishap
* `Source.decodeCarefully_eq` — and so is the next request, from any source

## Design notes

Operations come in the order in which the tests around them let them come; a condition is cut
short where its first part decides it.  The one buffer that no test of its own protects is the
data unit: it is never empty because of the smallest length that a header may declare.
-/

namespace HeatingPlant.Modbus

/-! ### Headers -/

namespace Header

/-- The header of a byte string, field by field. -/
def ofBytesCarefully (bytes : List UInt8) : Careful Header := do
  let transaction ← Careful.wordAt bytes 0
  let protocol ← Careful.wordAt bytes 2
  let length ← Careful.wordAt bytes 4
  let unit ← Careful.get bytes 6
  return ⟨transaction, protocol, length, unit⟩

/-- The number of bytes that follow the header, or the fault that the header is. -/
def bodyLengthCarefully (header : Header) : Careful (Except Fault Nat) :=
  if largestLength < header.length.toNat then pure (.error (.backend header.length))
  else if header.length.toNat < smallestLength then
    pure (.error (.malformed (.tooShort header.length)))
  else if header.protocol ≠ 0 then pure (.error (.malformed (.foreignProtocol header.protocol)))
  else do
    let n ← Careful.size ((header.length.toNat : Int) - 1)
    return .ok n

/-- All fields of a whole header are there. -/
theorem ofBytesCarefully_eq {bytes : List UInt8} {header : Header}
    (h : ofBytes? bytes = some header) : ofBytesCarefully bytes = .ok header := by
  unfold ofBytes? at h
  split at h
  · cases h
    rfl
  · cases h

/-- **No length of a body goes below zero**: where it is computed, the header declares two bytes
or more. -/
theorem bodyLengthCarefully_eq (header : Header) :
    header.bodyLengthCarefully = .ok header.bodyLength := by
  have hlargest : largestLength = 254 := rfl
  have hsmallest : smallestLength = 2 := rfl
  have hsize : Careful.largestSize = 4294967295 := rfl
  unfold bodyLengthCarefully bodyLength
  split
  · rfl
  split
  · rfl
  split
  · rfl
  rw [Careful.size_eq (n := header.length.toNat - 1) (by omega) (by omega), Careful.ok_bind]
  rfl

end Header

/-! ### Data units -/

/-- The end of a run of registers fits a size, wherever it starts and however long it is. -/
theorem size_run (start count : UInt16) :
    Careful.size (start.toNat + count.toNat) = .ok (start.toNat + count.toNat) := by
  have hstart := start.toNat_lt
  have hcount := count.toNat_lt
  have hsize : Careful.largestSize = 4294967295 := rfl
  exact Careful.size_eq (Int.natCast_add _ _).symm (by omega)

namespace Action

/-- An action on a run of registers, or its refusal if the bank ends before the run does. -/
def inBankCarefully (function : UInt8) (start count : UInt16) (action : Careful Action) :
    Careful Action := do
  let stop ← Careful.size (start.toNat + count.toNat)
  if Register.count < stop then pure (reject function .illegalDataAddress) else action

/-- A read of registers, from the body of its data unit. -/
def ofReadBodyCarefully (function : UInt8) (body : List UInt8) : Careful Action :=
  if body.length ≠ 4 then pure (reject function .illegalDataValue)
  else do
    let start ← Careful.wordAt body 0
    let count ← Careful.wordAt body 2
    if count = 0 ∨ largestReadCount < count.toNat then pure (reject function .illegalDataValue)
    else inBankCarefully function start count (pure (read function start count))

/-- A write of one register, from the body of its data unit. -/
def ofWriteSingleBodyCarefully (body : List UInt8) : Careful Action :=
  if body.length ≠ 4 then pure (reject writeSingleCode .illegalDataValue)
  else do
    let address ← Careful.wordAt body 0
    if Register.count ≤ address.toNat then pure (reject writeSingleCode .illegalDataAddress)
    else do
      let value ← Careful.wordAt body 2
      return writeSingle address value

/-- Whether the quantity, the byte count or the length of a run of values is wrong. -/
def missizedCarefully (count : UInt16) (byteCount : UInt8) (length : Nat) : Careful Bool :=
  if count = 0 ∨ largestWriteCount < count.toNat then pure true
  else do
    let declared ← Careful.size (count.toNat * 2)
    if byteCount.toNat ≠ declared then pure true
    else do
      let whole ← Careful.size (5 + byteCount.toNat)
      return decide (length ≠ whole)

/-- A write of several registers, from the body of its data unit. -/
def ofWriteMultipleBodyCarefully (body : List UInt8) : Careful Action :=
  if body.length < 5 then pure (reject writeMultipleCode .illegalDataValue)
  else do
    let start ← Careful.wordAt body 0
    let count ← Careful.wordAt body 2
    let byteCount ← Careful.get body 4
    let missized ← missizedCarefully count byteCount body.length
    if missized then pure (reject writeMultipleCode .illegalDataValue)
    else inBankCarefully writeMultipleCode start count do
      let data ← Careful.skip body 5
      let values ← Careful.words data
      return writeMultiple start values

/-- The action that a protocol data unit asks for. -/
def ofPduCarefully (pdu : List UInt8) : Careful Action := do
  let function ← Careful.get pdu 0
  let body ← Careful.skip pdu 1
  if function = readHolding ∨ function = readInput then ofReadBodyCarefully function body
  else if function = writeSingleCode then ofWriteSingleBodyCarefully body
  else if function = writeMultipleCode then ofWriteMultipleBodyCarefully body
  else pure (reject function .illegalFunction)

variable {function : UInt8} {start count : UInt16}

theorem inBankCarefully_eq (action : Action) :
    inBankCarefully function start count (.ok action) =
      .ok (if Register.count < start.toNat + count.toNat then reject function .illegalDataAddress
        else action) := by
  rw [inBankCarefully, size_run, Careful.ok_bind]
  split <;> rfl

/-- Bytes that are not four of them are no four bytes. -/
theorem length_ne_four {bytes : List UInt8} (h : ∀ a b c d, bytes = [a, b, c, d] → False) :
    bytes.length ≠ 4 := by
  intro hfour
  match bytes, hfour, h with
  | [a, b, c, d], _, h => exact h a b c d rfl

/-- Bytes that do not start with five of them are fewer than five. -/
theorem length_lt_five {bytes : List UInt8}
    (h : ∀ a b c d e rest, bytes = a :: b :: c :: d :: e :: rest → False) :
    bytes.length < 5 := by
  match bytes, h with
  | [], _ | [_], _ | [_, _], _ | [_, _, _], _ | [_, _, _, _], _ => simp
  | a :: b :: c :: d :: e :: rest, h => exact (h a b c d e rest rfl).elim

theorem ofReadBodyCarefully_eq (function : UInt8) (body : List UInt8) :
    ofReadBodyCarefully function body = .ok (ofReadBody function body) := by
  unfold ofReadBody
  split
  · rw [ofReadBodyCarefully, if_neg (by simp)]
    -- both words lie in the four bytes
    show (if _ then _ else _) = _
    dsimp only
    split
    · rfl
    · exact inBankCarefully_eq _
  · rename_i hbody
    exact if_pos (length_ne_four hbody)

theorem ofWriteSingleBodyCarefully_eq (body : List UInt8) :
    ofWriteSingleBodyCarefully body = .ok (ofWriteSingleBody body) := by
  unfold ofWriteSingleBody
  split
  · rw [ofWriteSingleBodyCarefully, if_neg (by simp)]
    show (if _ then _ else _) = _
    dsimp only
    split <;> rfl
  · rename_i hbody
    exact if_pos (length_ne_four hbody)

/-- Whether the size of a run of values is wrong is found out without a mishap. -/
theorem missizedCarefully_eq (count : UInt16) (byteCount : UInt8) (length : Nat) :
    missizedCarefully count byteCount length =
      .ok (decide (count = 0 ∨ largestWriteCount < count.toNat ∨
        byteCount.toNat ≠ 2 * count.toNat ∨ length ≠ 5 + byteCount.toNat)) := by
  have hcount := count.toNat_lt
  have hbytes := byteCount.toNat_lt
  have hsize : Careful.largestSize = 4294967295 := rfl
  unfold missizedCarefully
  split
  · rename_i hwrong
    exact congrArg Except.ok (decide_eq_true (or_assoc.mp (.inl hwrong))).symm
  rename_i hquantity
  rw [Careful.size_eq (n := count.toNat * 2) (by omega) (by omega), Careful.ok_bind]
  split
  · rename_i hwrong
    exact congrArg Except.ok (decide_eq_true (.inr (.inr (.inl (by omega))))).symm
  rename_i hdeclared
  rw [Careful.size_eq (n := 5 + byteCount.toNat) (by omega) (by omega), Careful.ok_bind]
  refine congrArg Except.ok (decide_eq_decide.mpr ?_)
  rw [← or_assoc, or_iff_right hquantity, or_iff_right (by omega)]

/-- **A run of values is read without a mishap**: its byte count is there, and its values are. -/
theorem ofWriteMultipleBodyCarefully_eq (body : List UInt8) :
    ofWriteMultipleBodyCarefully body = .ok (ofWriteMultipleBody body) := by
  unfold ofWriteMultipleBody
  split
  · rename_i startHigh startLow countHigh countLow byteCount data
    have hlength : data.length + 5 ≠ 5 + byteCount.toNat ↔ data.length ≠ byteCount.toNat := by
      omega
    have hdata :
      Careful.skip (startHigh :: startLow :: countHigh :: countLow :: byteCount :: data) 5 =
        .ok data := Careful.skip_eq (by simp)
    rw [ofWriteMultipleBodyCarefully, if_neg (by simp), hdata]
    show (missizedCarefully (Word.ofBytes countHigh countLow) byteCount (data.length + 5) >>= _) = _
    rw [missizedCarefully_eq, Careful.ok_bind]
    simp only [hlength, decide_eq_true_eq]
    split
    · rfl
    · rw [Careful.ok_bind, Careful.words_eq, Careful.ok_bind]
      exact inBankCarefully_eq _
  · rename_i hbody
    exact if_pos (length_lt_five hbody)

/-- **A data unit with a function byte is read without a mishap**, whatever its function and its
length. -/
theorem ofPduCarefully_cons (function : UInt8) (body : List UInt8) :
    ofPduCarefully (function :: body) = .ok (ofPdu function body) := by
  have hbody : Careful.skip (function :: body) 1 = .ok body := Careful.skip_eq (by simp)
  rw [ofPduCarefully, Careful.get_cons_zero, Careful.ok_bind, hbody, Careful.ok_bind, ofPdu]
  split
  · exact ofReadBodyCarefully_eq function body
  split
  · exact ofWriteSingleBodyCarefully_eq body
  split
  · exact ofWriteMultipleBodyCarefully_eq body
  · rfl

/-- Only the header keeps an empty data unit away. -/
example : ofPduCarefully [] = .error .outOfBounds := rfl

end Action

/-! ### Requests -/

/-- The request that a header and the data unit after it make. -/
def Request.ofFrameCarefully (header : Header) (pdu : List UInt8) : Careful Request := do
  let action ← Action.ofPduCarefully pdu
  let wireLength ← Careful.size (headerLength + pdu.length)
  return { transaction := header.transaction, unit := header.unit, action, wireLength }

/-- The next request, or the fault that stands in its place. -/
def Source.decodeCarefully (source : Source) : Careful (Except Fault Request × Source) :=
  match source.readExact headerLength with
  | (.error fault, rest) => pure (.error fault, rest)
  | (.ok headerBytes, rest) => do
    let header ← Header.ofBytesCarefully headerBytes
    match ← header.bodyLengthCarefully with
    | .error fault => pure (.error fault, rest)
    | .ok n =>
      match rest.readExact n with
      | (.error fault, rest) => pure (.error fault, rest)
      | (.ok pdu, rest) => do
        let request ← Request.ofFrameCarefully header pdu
        return (.ok request, rest)

/-- A data unit of one byte or more makes a request without a mishap, if it is no longer than the
largest. -/
theorem Request.exists_ofFrameCarefully (header : Header) {pdu : List UInt8}
    (hpos : 1 ≤ pdu.length) (hmost : pdu.length ≤ largestPdu) :
    ∃ request, ofFrame header pdu = some request ∧
      ofFrameCarefully header pdu = .ok request := by
  have hlargest : largestPdu = 253 := rfl
  have hheader : headerLength = 7 := rfl
  have hsize : Careful.largestSize = 4294967295 := rfl
  cases pdu with
  | nil => cases hpos
  | cons function body =>
      refine ⟨_, rfl, ?_⟩
      rw [ofFrameCarefully, Action.ofPduCarefully_cons, Careful.ok_bind,
        Careful.size_eq (n := headerLength + (function :: body).length) (by omega) (by omega)]
      rfl

/-- **The next request is read without a mishap**, from any source: whatever its bytes, the pieces
in which they come, and its end. -/
theorem Source.decodeCarefully_eq (source : Source) :
    source.decodeCarefully = .ok source.decode := by
  have hwhole := (readExact_length headerLength source).2
  unfold decodeCarefully decode
  generalize source.readExact headerLength = read at hwhole ⊢
  obtain ⟨fault | headerBytes, rest⟩ := read
  · rfl
  cases hheader : Header.ofBytes? headerBytes with
  | none => exact absurd (hwhole headerBytes rfl).1 (Header.ofBytes?_eq_none_iff.mp hheader)
  | some header =>
      dsimp only
      rw [Header.ofBytesCarefully_eq hheader, Careful.ok_bind, Header.bodyLengthCarefully_eq,
        Careful.ok_bind, hheader]
      dsimp only
      cases hbody : header.bodyLength with
      | error fault => rfl
      | ok n =>
          have hpdu := (readExact_length n rest).2
          obtain ⟨-, hpos, hmost, -⟩ := Header.bodyLength_eq_ok_iff.mp hbody
          dsimp only
          generalize rest.readExact n = read at hpdu ⊢
          obtain ⟨fault | pdu, last⟩ := read
          · rfl
          -- the data unit is as long as the header says, and so not empty
          obtain ⟨hlength, -⟩ := hpdu pdu rfl
          obtain ⟨request, hrequest, hcareful⟩ :=
            Request.exists_ofFrameCarefully header (hlength ▸ hpos) (hlength ▸ hmost)
          dsimp only
          rw [hcareful, Careful.ok_bind, hrequest]
          rfl

end HeatingPlant.Modbus
