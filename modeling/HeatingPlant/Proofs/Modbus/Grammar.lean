import HeatingPlant.Modbus.Action

/-!
# The grammar of data units

Which data units ask for something, and what the others are refused for.

## Main definitions

* `Action.InRange` — an action on registers that are in the bank
* `Supported`, `WellSized`, `InBank` — what is asked of a data unit, in the order in which it is
  asked
* `Verdict` — the action that a data unit deserves

## Main statements

* `Action.ofPdu_of_toPdu` — the data unit of an action in range asks for that action
* `Action.verdict_ofPdu` — every data unit gets the action that it deserves
* `Action.ofPdu_exact` — both together, with the exception of every other data unit

## Design notes

The three conditions are written over positions of the body, and not over its parts as the reader of
data units sees them: a start, a quantity and a byte count, each at its place.
-/

namespace HeatingPlant.Modbus

/-! ### What is asked of a data unit -/

/-- The functions that the bank offers. -/
def Supported (function : UInt8) : Prop :=
  function = readHolding ∨ function = readInput ∨ function = writeSingleCode ∨
    function = writeMultipleCode

instance (function : UInt8) : Decidable (Supported function) :=
  inferInstanceAs (Decidable (_ ∨ _ ∨ _ ∨ _))

/-- The word at a position of a body; bytes past its end count as zero. -/
def wordAt (body : List UInt8) (position : Nat) : UInt16 :=
  Word.ofBytes (body.getD position 0) (body.getD (position + 1) 0)

/-- Number of registers that a data unit is about. -/
def quantity (function : UInt8) (body : List UInt8) : Nat :=
  if function = writeSingleCode then 1 else (wordAt body 2).toNat

/-- Most registers that one data unit may be about. -/
def largestQuantity (function : UInt8) : Nat :=
  if function = writeMultipleCode then largestWriteCount else largestReadCount

/-- Size, quantity and byte count of a data unit are right. -/
structure WellSized (function : UInt8) (body : List UInt8) : Prop where
  /-- Four bytes of address and quantity or value; a run of values has its byte count and the values
  after it. -/
  length : body.length =
    if function = writeMultipleCode then 5 + (body.getD 4 0).toNat else 4
  /-- There is a register that it is about. -/
  quantity_pos : 1 ≤ quantity function body
  /-- There are not too many of them. -/
  quantity_le : quantity function body ≤ largestQuantity function
  /-- The byte count of a run of values is two for each. -/
  byteCount : function = writeMultipleCode → (body.getD 4 0).toNat = 2 * quantity function body

/-- The registers that a data unit is about are in the bank. -/
def InBank (function : UInt8) (body : List UInt8) : Prop :=
  (wordAt body 0).toNat + quantity function body ≤ Register.count

/-- An action on registers that are in the bank, at least one of them. -/
def Action.InRange : Action → Prop
  | read function start count =>
    (function = readHolding ∨ function = readInput) ∧ 1 ≤ count.toNat ∧
      start.toNat + count.toNat ≤ Register.count
  | writeSingle address _ => address.toNat < Register.count
  | writeMultiple start values =>
    1 ≤ values.length ∧ start.toNat + values.length ≤ Register.count
  | reject .. => False

/-- The action that a data unit deserves: the one that it says if that is in range, and otherwise a
refusal for the first thing that is wrong. -/
inductive Verdict (function : UInt8) (body : List UInt8) : Action → Prop
  | accepted {action : Action} (inRange : action.InRange)
      (asks : action.toPdu = some (function :: body)) : Verdict function body action
  | unsupported (h : ¬Supported function) :
      Verdict function body (.reject function .illegalFunction)
  | missized (supported : Supported function) (h : ¬WellSized function body) :
      Verdict function body (.reject function .illegalDataValue)
  | outside (supported : Supported function) (sized : WellSized function body)
      (h : ¬InBank function body) : Verdict function body (.reject function .illegalDataAddress)

namespace Action

variable {function : UInt8} {body : List UInt8}

/-! ### One function after the other -/

theorem verdict_ofReadBody (hfunction : function = readHolding ∨ function = readInput)
    (body : List UInt8) : Verdict function body (ofReadBody function body) := by
  have hsupported : Supported function := by
    rcases hfunction with rfl | rfl <;> decide
  have hsingle : function ≠ writeSingleCode := by
    rcases hfunction with rfl | rfl <;> decide
  have hmultiple : function ≠ writeMultipleCode := by
    rcases hfunction with rfl | rfl <;> decide
  unfold ofReadBody
  split
  · rename_i startHigh startLow countHigh countLow
    have hquantity : quantity function [startHigh, startLow, countHigh, countLow] =
        (Word.ofBytes countHigh countLow).toNat := if_neg hsingle
    have hlargest : largestQuantity function = largestReadCount := if_neg hmultiple
    dsimp only
    split
    · rename_i hcount
      refine .missized hsupported fun hsized => ?_
      have hpos := hsized.quantity_pos
      have hle := hsized.quantity_le
      rw [hquantity] at hpos hle
      rw [hlargest] at hle
      rcases hcount with hzero | hlarge
      · rw [hzero] at hpos
        cases hpos
      · omega
    · rename_i hcount
      rw [not_or, Nat.not_lt] at hcount
      have hne : (Word.ofBytes countHigh countLow).toNat ≠ 0 := fun h =>
        hcount.1 (UInt16.toNat_inj.mp h)
      split
      · rename_i hrange
        refine .outside hsupported ⟨(if_neg hmultiple).symm, ?_, ?_, ?_⟩ fun hbank => ?_
        · rw [hquantity]
          omega
        · rw [hquantity, hlargest]
          exact hcount.2
        · exact fun h => absurd h hmultiple
        · rw [InBank, hquantity] at hbank
          exact absurd hbank (Nat.not_le.mpr hrange)
      · rename_i hrange
        refine .accepted ⟨hfunction, by omega, by omega⟩ ?_
        rw [toPdu, Word.toBytes_ofBytes, Word.toBytes_ofBytes]
        rfl
  · rename_i hlength
    refine .missized hsupported fun hsized => ?_
    have hfour : body.length = 4 := hsized.length.trans (if_neg hmultiple)
    match body, hfour, hlength with
    | [a, b, c, d], _, hlength => exact hlength a b c d rfl

theorem verdict_ofWriteSingleBody (body : List UInt8) :
    Verdict writeSingleCode body (ofWriteSingleBody body) := by
  have hsupported : Supported writeSingleCode := by decide
  unfold ofWriteSingleBody
  split
  · rename_i addressHigh addressLow valueHigh valueLow
    dsimp only
    split
    · rename_i hrange
      have hone : quantity writeSingleCode [addressHigh, addressLow, valueHigh, valueLow] = 1 := rfl
      refine .outside hsupported ⟨rfl, ?_, ?_, fun h => absurd h (by decide)⟩ fun hbank => ?_
      · exact Nat.le_of_eq hone.symm
      · rw [hone]
        decide
      change (Word.ofBytes addressHigh addressLow).toNat + 1 ≤ Register.count at hbank
      omega
    · rename_i hrange
      refine .accepted (Nat.lt_of_not_le hrange) ?_
      rw [toPdu, Word.toBytes_ofBytes, Word.toBytes_ofBytes]
      rfl
  · rename_i hlength
    refine .missized hsupported fun hsized => ?_
    have hfour : body.length = 4 := hsized.length
    match body, hfour, hlength with
    | [a, b, c, d], _, hlength => exact hlength a b c d rfl

theorem verdict_ofWriteMultipleBody (body : List UInt8) :
    Verdict writeMultipleCode body (ofWriteMultipleBody body) := by
  have hsupported : Supported writeMultipleCode := by decide
  unfold ofWriteMultipleBody
  split
  · rename_i startHigh startLow countHigh countLow byteCount data
    dsimp only
    -- the three positions that the conditions look at
    have hquantity : quantity writeMultipleCode
        (startHigh :: startLow :: countHigh :: countLow :: byteCount :: data) =
        (Word.ofBytes countHigh countLow).toNat := rfl
    have hlargest : largestQuantity writeMultipleCode = largestWriteCount := rfl
    split
    · rename_i hwrong
      refine .missized hsupported fun hsized => ?_
      have hlength : data.length + 5 = 5 + byteCount.toNat := hsized.length
      have hpos := hsized.quantity_pos
      have hle := hsized.quantity_le
      have hbytes : byteCount.toNat = 2 * (Word.ofBytes countHigh countLow).toNat :=
        hsized.byteCount rfl
      rw [hquantity] at hpos hle
      rw [hlargest] at hle
      rcases hwrong with hzero | hlarge | hcount | hdata
      · rw [hzero] at hpos
        cases hpos
      · omega
      · exact hcount hbytes
      · omega
    · rename_i hright
      simp only [not_or, Nat.not_lt, ne_eq, Decidable.not_not] at hright
      obtain ⟨hne, hle, hbytes, hdata⟩ := hright
      have hpos : (Word.ofBytes countHigh countLow).toNat ≠ 0 := fun h =>
        hne (UInt16.toNat_inj.mp h)
      split
      · rename_i hrange
        refine .outside hsupported ⟨?_, ?_, hle, fun _ => hbytes⟩ fun hbank => ?_
        · show data.length + 5 = 5 + byteCount.toNat
          omega
        · rw [hquantity]
          omega
        · rw [InBank, hquantity] at hbank
          exact absurd hbank (Nat.not_le.mpr hrange)
      · rename_i hrange
        -- the values are as many as the quantity says, and spell the data
        have hvalues :
          (Word.listOfBytes data).length = (Word.ofBytes countHigh countLow).toNat := by
          rw [Word.length_listOfBytes]
          omega
        have hspell : Word.listToBytes (Word.listOfBytes data) = data :=
          Word.listToBytes_listOfBytes (by omega)
        refine .accepted ⟨by omega, by omega⟩ ?_
        rw [toPdu, hvalues, hspell, UInt16.ofNat_toNat, Word.toBytes_ofBytes, Word.toBytes_ofBytes,
          ← hbytes, UInt8.ofNat_toNat]
        rfl
  · rename_i hshort
    refine .missized hsupported fun hsized => ?_
    have hlength : body.length = 5 + (body.getD 4 0).toNat := hsized.length
    match body, hshort, hlength with
    | [], _, hlength | [_], _, hlength | [_, _], _, hlength | [_, _, _], _, hlength
    | [_, _, _, _], _, hlength =>
      simp only [List.length_cons, List.length_nil] at hlength
      omega
    | a :: b :: c :: d :: e :: rest, hshort, _ => exact hshort a b c d e rest rfl

/-! ### Every function -/

/-- **Every data unit gets the action that it deserves.** -/
theorem verdict_ofPdu (function : UInt8) (body : List UInt8) :
    Verdict function body (ofPdu function body) := by
  unfold ofPdu
  split
  · rename_i hread
    exact verdict_ofReadBody hread body
  · rename_i hread
    split
    · rename_i hsingle
      subst hsingle
      exact verdict_ofWriteSingleBody body
    · rename_i hsingle
      split
      · rename_i hmultiple
        subst hmultiple
        exact verdict_ofWriteMultipleBody body
      · rename_i hmultiple
        refine .unsupported ?_
        rintro (h | h | h | h)
        · exact hread (Or.inl h)
        · exact hread (Or.inr h)
        · exact hsingle h
        · exact hmultiple h

/-- **The data unit of an action in range asks for that action.** -/
theorem ofPdu_of_toPdu {action : Action} (hrange : action.InRange)
    (hpdu : action.toPdu = some (function :: body)) : ofPdu function body = action := by
  cases action with
  | read _ start count =>
    obtain ⟨hread, hpos, hle⟩ := hrange
    have hne : ¬(count = 0 ∨ largestReadCount < count.toNat) := by
      rintro (rfl | hlarge)
      · cases hpos
      · have hten : Register.count = 10 := rfl
        have hmost : largestReadCount = 125 := rfl
        omega
    cases hpdu
    show ofPdu function [_, _, _, _] = _
    rw [ofPdu, if_pos hread, ofReadBody, Word.ofBytes_toBytes, Word.ofBytes_toBytes, if_neg hne,
      if_neg (Nat.not_lt.mpr hle)]
  | writeSingle address value =>
    cases hpdu
    show ofWriteSingleBody [_, _, _, _] = _
    rw [ofWriteSingleBody, Word.ofBytes_toBytes, Word.ofBytes_toBytes,
      if_neg (Nat.not_le.mpr hrange)]
  | writeMultiple start values =>
    obtain ⟨hpos, hle⟩ := hrange
    have hten : Register.count = 10 := rfl
    have hcount : (UInt16.ofNat values.length).toNat = values.length := by
      rw [UInt16.toNat_ofNat']
      omega
    have hbytes : (UInt8.ofNat (2 * values.length)).toNat = 2 * values.length := by
      rw [UInt8.toNat_ofNat']
      omega
    cases hpdu
    show ofWriteMultipleBody (_ :: _ :: _ :: _ :: _ :: Word.listToBytes values) = _
    rw [ofWriteMultipleBody, Word.ofBytes_toBytes, Word.ofBytes_toBytes, hcount, hbytes,
      Word.length_listToBytes, Word.listOfBytes_listToBytes]
    have hright : ¬(UInt16.ofNat values.length = 0 ∨ largestWriteCount < values.length ∨
        2 * values.length ≠ 2 * values.length ∨ 2 * values.length ≠ 2 * values.length) := by
      rintro (hzero | hlarge | hne | hne)
      · rw [hzero] at hcount
        change 0 = _ at hcount
        omega
      · have h : largestWriteCount = 123 := rfl
        omega
      · exact hne rfl
      · exact hne rfl
    rw [if_neg hright, if_neg (Nat.not_lt.mpr hle)]
  | reject => exact hrange.elim

/-- **A data unit asks for the action in range that it says, and is refused if it says none**: for
its function if that is not supported, otherwise for its size, quantity or byte count if one of them
is wrong, and otherwise for its registers. -/
theorem ofPdu_exact (function : UInt8) (body : List UInt8) :
    (∀ action : Action, action.InRange → action.toPdu = some (function :: body) →
      ofPdu function body = action) ∧
    ((∀ action : Action, action.InRange → action.toPdu ≠ some (function :: body)) →
      ∃ exception, ofPdu function body = .reject function exception ∧
        (exception.code = 1 ↔ ¬Supported function) ∧
        (exception.code = 3 ↔ Supported function ∧ ¬WellSized function body) ∧
        (exception.code = 2 ↔
          Supported function ∧ WellSized function body ∧ ¬InBank function body)) := by
  refine ⟨fun action hrange hpdu => ofPdu_of_toPdu hrange hpdu, fun hnone => ?_⟩
  have h1 : ExceptionCode.illegalFunction.code = 1 := rfl
  have h2 : ExceptionCode.illegalDataAddress.code = 2 := rfl
  have h3 : ExceptionCode.illegalDataValue.code = 3 := rfl
  generalize haction : ofPdu function body = action
  have hverdict := verdict_ofPdu function body
  rw [haction] at hverdict
  cases hverdict with
  | accepted hrange hpdu => exact absurd hpdu (hnone action hrange)
  | unsupported h => exact ⟨_, rfl, by simp [h1, h]⟩
  | missized hs h => exact ⟨_, rfl, by simp [h3, hs, h]⟩
  | outside hs hsized h => exact ⟨_, rfl, by simp [h2, hs, hsized, h]⟩

end Action

end HeatingPlant.Modbus
