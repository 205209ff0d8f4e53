import HeatingPlant.Modbus.Frame

/-!
# Replies

The frame that answers a request from a snapshot of the register bank.

## Main definitions

* `Action.reply` — the data unit that answers an action
* `Request.reply` — the frame around it
-/

namespace HeatingPlant.Modbus

/-- The data unit of an exception: the function byte with its top bit set, and the code. -/
def exceptionPdu (function : UInt8) (exception : ExceptionCode) : List UInt8 :=
  [function ||| 0x80, exception.code]

/-- The registers from `start` on, `count` of them, if all of them are in the bank. -/
def readRange? (registers : Registers) (start count : Nat) : Option (List UInt16) :=
  if start + count ≤ Register.count then some ((registers.toList.drop start).take count) else none

/-- The data unit that answers an action from a snapshot of the bank. -/
def Action.reply (registers : Registers) : Action → List UInt8
  | read function start count =>
    match readRange? registers start.toNat count.toNat with
    | some values => function :: UInt8.ofNat (2 * values.length) :: Word.listToBytes values
    | none => exceptionPdu function .illegalDataAddress
  | writeSingle address value => writeSingleCode :: Word.toBytes address ++ Word.toBytes value
  | writeMultiple start values =>
    writeMultipleCode :: Word.toBytes start ++ Word.toBytes (UInt16.ofNat values.length)
  | reject function exception => exceptionPdu function exception

/-- The frame around a data unit. -/
def frame (transaction : UInt16) (unit : UInt8) (pdu : List UInt8) : List UInt8 :=
  Header.toBytes ⟨transaction, 0, UInt16.ofNat (pdu.length + 1), unit⟩ ++ pdu

/-- The frame that answers a request. -/
def Request.reply (request : Request) (registers : Registers) : List UInt8 :=
  frame request.transaction request.unit (request.action.reply registers)

end HeatingPlant.Modbus
