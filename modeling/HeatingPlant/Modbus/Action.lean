import HeatingPlant.Number.Word
import HeatingPlant.Registers.Bank

/-!
# Requests on the register bank

What a well-framed request asks for, and how a protocol data unit says it.

## Main definitions

* `Action` — a read, a write of one or several registers, or a request to be refused
* `Action.ofPdu` — the action that a protocol data unit asks for
* `Action.toPdu` — the protocol data unit that asks for an action
* `Action.written` — the words that an action writes, and where

## Design notes

A protocol data unit is its function byte and the bytes after it.  Of the checks on them, size,
quantity and byte count come first and the range of registers last, so that a request wrong in both
ways is refused for its size.
-/

namespace HeatingPlant.Modbus

/-- Why a well-framed request is answered with an exception. -/
inductive ExceptionCode where
  /-- The function is not supported. -/
  | illegalFunction
  /-- The registers lie outside the bank. -/
  | illegalDataAddress
  /-- The size, the quantity or the byte count is wrong. -/
  | illegalDataValue
  deriving DecidableEq, Repr

/-- The byte that reports an exception. -/
def ExceptionCode.code : ExceptionCode → UInt8
  | illegalFunction => 1
  | illegalDataAddress => 2
  | illegalDataValue => 3

/-- What a request asks for. -/
inductive Action where
  /-- Read `count` registers from `start` on; `function` says which of the two read functions. -/
  | read (function : UInt8) (start count : UInt16)
  /-- Write one register. -/
  | writeSingle (address value : UInt16)
  /-- Write a run of registers. -/
  | writeMultiple (start : UInt16) (values : List UInt16)
  /-- Refuse the request. -/
  | reject (function : UInt8) (exception : ExceptionCode)
  deriving DecidableEq, Repr

/-- Function code: read holding registers. -/
def readHolding : UInt8 := 0x03

/-- Function code: read input registers, which are the same bank. -/
def readInput : UInt8 := 0x04

/-- Function code: write a single register. -/
def writeSingleCode : UInt8 := 0x06

/-- Function code: write multiple registers. -/
def writeMultipleCode : UInt8 := 0x10

/-- Most registers that one read may ask for. -/
def largestReadCount : Nat := 125

/-- Most registers that one write may carry. -/
def largestWriteCount : Nat := 123

namespace Action

/-- The words that an action writes, and the position of the first; `none` for an action that
writes nothing. -/
def written : Action → Option (Nat × List UInt16)
  | read .. => none
  | writeSingle address value => some (address.toNat, [value])
  | writeMultiple start values => some (start.toNat, values)
  | reject .. => none

/-- A read of registers, from the body of its data unit. -/
def ofReadBody (function : UInt8) : List UInt8 → Action
  | [startHigh, startLow, countHigh, countLow] =>
    let start := Word.ofBytes startHigh startLow
    let count := Word.ofBytes countHigh countLow
    if count = 0 ∨ largestReadCount < count.toNat then reject function .illegalDataValue
    else if Register.count < start.toNat + count.toNat then reject function .illegalDataAddress
    else read function start count
  | _ => reject function .illegalDataValue

/-- A write of one register, from the body of its data unit. -/
def ofWriteSingleBody : List UInt8 → Action
  | [addressHigh, addressLow, valueHigh, valueLow] =>
    let address := Word.ofBytes addressHigh addressLow
    if Register.count ≤ address.toNat then reject writeSingleCode .illegalDataAddress
    else writeSingle address (Word.ofBytes valueHigh valueLow)
  | _ => reject writeSingleCode .illegalDataValue

/-- A write of several registers, from the body of its data unit. -/
def ofWriteMultipleBody : List UInt8 → Action
  | startHigh :: startLow :: countHigh :: countLow :: byteCount :: data =>
    let start := Word.ofBytes startHigh startLow
    let count := Word.ofBytes countHigh countLow
    if count = 0 ∨ largestWriteCount < count.toNat ∨ byteCount.toNat ≠ 2 * count.toNat ∨
        data.length ≠ byteCount.toNat then
      reject writeMultipleCode .illegalDataValue
    else if Register.count < start.toNat + count.toNat then
      reject writeMultipleCode .illegalDataAddress
    else writeMultiple start (Word.listOfBytes data)
  | _ => reject writeMultipleCode .illegalDataValue

/-- The action that a protocol data unit asks for. -/
def ofPdu (function : UInt8) (body : List UInt8) : Action :=
  if function = readHolding ∨ function = readInput then ofReadBody function body
  else if function = writeSingleCode then ofWriteSingleBody body
  else if function = writeMultipleCode then ofWriteMultipleBody body
  else reject function .illegalFunction

/-- The protocol data unit that asks for an action; a refusal is nobody's request. -/
def toPdu : Action → Option (List UInt8)
  | read function start count => some (function :: Word.toBytes start ++ Word.toBytes count)
  | writeSingle address value =>
    some (writeSingleCode :: Word.toBytes address ++ Word.toBytes value)
  | writeMultiple start values =>
    some (writeMultipleCode :: Word.toBytes start ++ Word.toBytes (UInt16.ofNat values.length) ++
      UInt8.ofNat (2 * values.length) :: Word.listToBytes values)
  | reject .. => none

end Action

/-- A framed request. -/
structure Request where
  /-- Transaction identifier, echoed in the reply. -/
  transaction : UInt16
  /-- Unit identifier, echoed in the reply. -/
  unit : UInt8
  /-- What the request asks for. -/
  action : Action
  /-- Bytes that the request took on the wire. -/
  wireLength : Nat
  deriving DecidableEq, Repr

end HeatingPlant.Modbus
