import HeatingPlant.Registers.Bank

/-!
# What a write shows

A word written to a register shows up there, if it is taken, and nowhere else.

## Main definitions

* `writtenAt` — the word that a run of words has for a register

## Main statements

* `State.publish_write_of_ne` — a write leaves the other registers alone
* `State.publish_write_congr` — what a register shows after a write depends on what it showed
  before
* `State.publish_writeBlock` — a run of words acts on each register by the one word that it has
  for it
* `State.registers_eq_iff` — banks are equal that show the same in every register
-/

namespace HeatingPlant

/-- The word that a run of words from `start` on has for a register, if it reaches that far. -/
def writtenAt (start : Nat) (words : List UInt16) (register : Register) : Option UInt16 :=
  if start ≤ register.index then words[register.index - start]? else none

theorem writtenAt_cons_self {start : Nat} {register : Register} (h : register.index = start)
    (word : UInt16) (rest : List UInt16) : writtenAt start (word :: rest) register = some word := by
  rw [writtenAt, if_pos (Nat.le_of_eq h.symm), h, Nat.sub_self]
  rfl

/-- The first word is for no register but its own. -/
theorem writtenAt_cons_of_ne {start : Nat} {register : Register} (h : register.index ≠ start)
    (word : UInt16) (rest : List UInt16) :
    writtenAt start (word :: rest) register = writtenAt (start + 1) rest register := by
  unfold writtenAt
  by_cases hstart : start ≤ register.index
  · have hnext : start + 1 ≤ register.index := by omega
    have hindex : register.index - start = register.index - (start + 1) + 1 := by omega
    rw [if_pos hstart, if_pos hnext, hindex, List.getElem?_cons_succ]
  · rw [if_neg hstart, if_neg (by omega)]

/-- Nothing is written to the registers before the start. -/
theorem writtenAt_of_lt {start : Nat} {register : Register} (h : register.index < start)
    (words : List UInt16) : writtenAt start words register = none :=
  if_neg (Nat.not_le.mpr h)

namespace State

variable {s t : State} {register other : Register}

/-! ### One word -/

/-- Writing to a register leaves what the others show. -/
theorem publish_write_of_ne (h : other ≠ register) (s : State) (word : UInt16) :
    (s.write register word).publish other = s.publish other := by
  unfold write
  cases register with
  | valveCommand | setpoint | mode =>
      dsimp only
      split
      · cases other <;> first | rfl | exact absurd rfl h
      · rfl
  | _ => rfl

/-- A register shows the written word or what it showed before, whatever the others show. -/
theorem publish_write_congr (h : s.publish register = t.publish register) (word : UInt16) :
    (s.write register word).publish register = (t.write register word).publish register := by
  unfold write
  cases register with
  | valveCommand | setpoint | mode =>
      dsimp only
      split
      · rfl
      · exact h
  | _ => exact h

/-! ### A run of words -/

theorem writeRegister_index (s : State) (word : UInt16) :
    s.writeRegister register.index word = s.write register word := by
  rw [writeRegister, Register.ofIndex?_index]

theorem publish_writeRegister_of_ne {index : Nat} (h : register.index ≠ index) (s : State)
    (word : UInt16) : (s.writeRegister index word).publish register = s.publish register := by
  unfold writeRegister
  split
  · rename_i written hwritten
    refine publish_write_of_ne ?_ s word
    rintro rfl
    exact h (Register.index_of_ofIndex? hwritten)
  · rfl

/-- **A run of words acts on each register by the one word that it has for it.** -/
theorem publish_writeBlock (s : State) (start : Nat) (words : List UInt16) (register : Register) :
    (s.writeBlock start words).publish register =
      match writtenAt start words register with
      | some word => (s.write register word).publish register
      | none => s.publish register := by
  induction words generalizing s start with
  | nil => simp [writtenAt]
  | cons word rest ih =>
      rw [writeBlock_cons, ih]
      by_cases hindex : register.index = start
      · -- the words after the first one go to later registers
        rw [writtenAt_of_lt (by omega), writtenAt_cons_self hindex, ← hindex, writeRegister_index]
      · have hkept := publish_writeRegister_of_ne hindex s word
        rw [writtenAt_cons_of_ne hindex]
        split
        · exact publish_write_congr hkept _
        · exact hkept

/-! ### The whole bank -/

/-- Banks are equal that show the same in every register. -/
theorem registers_eq_iff :
    s.registers = t.registers ↔ ∀ register, s.publish register = t.publish register := by
  constructor
  · intro h register
    have hs := registers_getElem?_index s register
    rw [h, registers_getElem?_index] at hs
    exact (Option.some.inj hs).symm
  · intro h
    have hpublish : s.publish = t.publish := funext h
    rw [registers, registers, hpublish]

/-- **After a run of words the bank is as before exactly if each word, taken on its own, leaves its
register as before.** -/
theorem registers_writeBlock_eq_iff (s : State) (start : Nat) (words : List UInt16) :
    (s.writeBlock start words).registers = s.registers ↔
      ∀ register word, writtenAt start words register = some word →
        (s.write register word).publish register = s.publish register := by
  rw [registers_eq_iff]
  refine forall_congr' fun register => ?_
  rw [publish_writeBlock]
  cases writtenAt start words register with
  | none => simp
  | some word => simp

end State

end HeatingPlant
