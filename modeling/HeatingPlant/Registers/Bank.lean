import HeatingPlant.Plant.State
import HeatingPlant.Plant.Valve
import HeatingPlant.Registers.Tenths

/-!
# The register bank

Ten holding registers publish the plant; three of them may be written.

| index | register | scale | writable |
|---|---|---|---|
| 0 | indoor temperature | tenths, signed | no |
| 1 | valve command | percent | yes |
| 2 | setpoint | tenths | yes |
| 3 | control mode | code | yes |
| 4 | outdoor temperature | tenths, signed | no |
| 5 | status | code | no |
| 6 | valve position | percent | no |
| 7 | supply temperature | tenths | no |
| 8 | runtime | low 16 bits | no |
| 9 | heater power | tenths | no |

## Main definitions

* `Register` — the ten registers, and their indices
* `Registers` — a snapshot of the bank
* `State.registers` — the snapshot that a state publishes
* `State.writeRegister`, `State.writeBlock`, `State.writeAll` — what a write does to the state

## Design notes

A write reaches the state register by register, so that what was not written keeps its full
precision.  A value out of range is dropped without a word, for that register alone, and a write to
a read-only register or outside the bank does nothing.
-/

namespace HeatingPlant

/-- The registers of the bank, in order. -/
inductive Register where
  | insideTemperature
  | valveCommand
  | setpoint
  | mode
  | outsideTemperature
  | status
  | valvePosition
  | supplyTemperature
  | runtime
  | heaterPower
  deriving DecidableEq, Repr

namespace Register

/-- Number of registers. -/
abbrev count : Nat := 10

/-- Position in the bank. -/
def index : Register → Nat
  | insideTemperature => 0
  | valveCommand => 1
  | setpoint => 2
  | mode => 3
  | outsideTemperature => 4
  | status => 5
  | valvePosition => 6
  | supplyTemperature => 7
  | runtime => 8
  | heaterPower => 9

/-- The registers in order. -/
def all : Vector Register count :=
  #v[insideTemperature, valveCommand, setpoint, mode, outsideTemperature, status, valvePosition,
    supplyTemperature, runtime, heaterPower]

/-- The registers that a client may write. -/
def writable : List Register := [valveCommand, setpoint, mode]

/-- The register at a position, if there is one. -/
def ofIndex? (index : Nat) : Option Register := all[index]?

theorem index_lt (r : Register) : r.index < count := by cases r <;> decide

@[simp] theorem ofIndex?_index (r : Register) : ofIndex? r.index = some r := by cases r <;> rfl

theorem index_of_ofIndex? {i : Nat} {r : Register} (h : ofIndex? i = some r) : r.index = i := by
  by_cases hi : i < count
  · have hi' : i < 10 := hi
    match i, hi' with
    | 0, _ | 1, _ | 2, _ | 3, _ | 4, _ | 5, _ | 6, _ | 7, _ | 8, _ | 9, _ =>
      cases h; rfl
  · simp [ofIndex?, Vector.getElem?_eq_none (Nat.le_of_not_lt hi)] at h

end Register

/-- A snapshot of the register bank. -/
abbrev Registers := Vector UInt16 Register.count

/-- Largest setpoint word that a client may write, in tenths. -/
def largestSetpointWord : UInt16 := 400

namespace State

/-- The word that a register shows. -/
def publish (s : State) : Register → UInt16
  | .insideTemperature => Tenths.encodeSigned s.insideTemperature
  | .valveCommand => s.valveCommand.toUInt16
  | .setpoint => Tenths.encode s.setpoint
  | .mode => s.mode.code
  | .outsideTemperature => Tenths.encodeSigned s.outsideTemperature
  | .status => s.status.code
  | .valvePosition => s.valvePosition.toUInt16
  | .supplyTemperature => Tenths.encode s.supplyTemperature
  | .runtime => s.runtime.toUInt16
  | .heaterPower => Tenths.encode s.heaterPower

/-- The whole bank as the state shows it. -/
def registers (s : State) : Registers := Register.all.map s.publish

theorem registers_getElem?_index (s : State) (r : Register) :
    s.registers[r.index]? = some (s.publish r) := by
  rw [registers, Vector.getElem?_map]
  show (Register.ofIndex? r.index).map _ = _
  rw [Register.ofIndex?_index, Option.map_some]

/-- The state after a word was written to a register. -/
def write (s : State) (register : Register) (word : UInt16) : State :=
  match register with
  | .valveCommand =>
    if word ≤ Valve.fullyOpen.toUInt16 then { s with valveCommand := word.toUInt8 } else s
  | .setpoint =>
    if word ≤ largestSetpointWord then { s with setpoint := Tenths.decode word } else s
  | .mode =>
    match ControlMode.ofCode? word with
    | some mode => { s with mode := mode }
    | none => s
  | _ => s

/-- The state after a word was written at a position of the bank, or past it. -/
def writeRegister (s : State) (index : Nat) (word : UInt16) : State :=
  match Register.ofIndex? index with
  | some register => s.write register word
  | none => s

/-- The state after a run of words was written from `start` on. -/
def writeBlock (s : State) (start : Nat) : List UInt16 → State
  | [] => s
  | word :: rest => (s.writeRegister start word).writeBlock (start + 1) rest

/-- The state after the writable words of a whole bank were written. -/
def writeAll (s : State) (words : Registers) : State :=
  Register.writable.foldl
    (fun s register => s.write register (words.get ⟨register.index, register.index_lt⟩)) s

@[simp] theorem writeBlock_nil (s : State) (start : Nat) : s.writeBlock start [] = s := rfl

@[simp] theorem writeBlock_cons (s : State) (start : Nat) (word : UInt16) (rest : List UInt16) :
    s.writeBlock start (word :: rest) = (s.writeRegister start word).writeBlock (start + 1) rest :=
  rfl

theorem writeBlock_append (s : State) (start : Nat) (first second : List UInt16) :
    s.writeBlock start (first ++ second) =
      (s.writeBlock start first).writeBlock (start + first.length) second := by
  induction first generalizing s start with
  | nil => simp
  | cons word rest ih =>
    simp only [List.cons_append, writeBlock_cons, ih, List.length_cons]
    congr 1
    omega

end State

end HeatingPlant
