import HeatingPlant.Proofs.Registers.Tenths
import HeatingPlant.Proofs.Registers.Writes

/-!
# Reading back what was written

A run of words offers each register at most one word.  A register that takes its word shows exactly
that word afterwards, and a field of the plant whose register took none is what it was, to the last
bit.

## Main definitions

* `Register.takes` — whether a register takes a word
* `accepted` — the word of a run that a register takes
* `State.take` — the state after registers took the words given to them

## Main statements

* `State.writeBlock_eq_take`, `State.writeAll_eq_take` — a run of words, or a whole bank of
  them, gives all registers their words at once
* `State.publish_take` — a register shows the word that it took
* `State.reads_back` — what a run of words does to the bank and to the plant

## Design notes

Words given at once have no order, and giving twice is giving once, with the later word before the
earlier one (`State.take_take`).  That writes to different registers do not meddle with each other,
and which of two writes to one register counts, are both read off these two facts.
-/

namespace HeatingPlant

/-- Whether a register takes a word; a read-only one never does. -/
def Register.takes : Register → UInt16 → Bool
  | .valveCommand, word => word ≤ 100
  | .setpoint, word => word ≤ 400
  | .mode, word => word ≤ 1
  | _, _ => false

/-- The word that a run of words from `start` on has for a register, if the register takes it. -/
def accepted (start : Nat) (words : List UInt16) (register : Register) : Option UInt16 :=
  (writtenAt start words register).filter register.takes

/-- The words up to one name a mode. -/
theorem ControlMode.ofCode?_eq (word : UInt16) :
    ofCode? word =
      if word ≤ 1 then some (if word = 0 then .manual else .auto) else none := by
  unfold ofCode?
  by_cases hzero : word = 0
  · subst hzero
    rfl
  · by_cases hone : word = 1
    · subst hone
      rfl
    · have hlarge : ¬word ≤ 1 := by
        rw [UInt16.le_iff_toNat_le]
        intro hle
        have hcases : word.toNat = 0 ∨ word.toNat = 1 := Nat.le_one_iff_eq_zero_or_eq_one.mp hle
        rcases hcases with h | h
        · exact hzero (UInt16.toNat_inj.mp h)
        · exact hone (UInt16.toNat_inj.mp h)
      rw [if_neg hzero, if_neg hone, if_neg hlarge]

section Accepted

variable {start : Nat} {register other : Register}

theorem accepted_nil (start : Nat) (register : Register) : accepted start [] register = none := by
  simp [accepted, writtenAt]

theorem accepted_cons_self (h : register.index = start) (word : UInt16) (rest : List UInt16) :
    accepted start (word :: rest) register = if register.takes word then some word else none := by
  rw [accepted, writtenAt_cons_self h, Option.filter_some]

theorem accepted_cons_of_ne (h : register.index ≠ start) (word : UInt16) (rest : List UInt16) :
    accepted start (word :: rest) register = accepted (start + 1) rest register := by
  rw [accepted, accepted, writtenAt_cons_of_ne h]

/-- A run of words offers a register its first word or one of the others. -/
theorem accepted_cons (start : Nat) (word : UInt16) (rest : List UInt16) (register : Register) :
    accepted start (word :: rest) register =
      (accepted (start + 1) rest register).or (accepted start [word] register) := by
  by_cases h : register.index = start
  · have hlater : accepted (start + 1) rest register = none := by
      rw [accepted, writtenAt_of_lt (by omega)]
      rfl
    rw [hlater, Option.none_or, accepted_cons_self h, accepted_cons_self h]
  · rw [accepted_cons_of_ne h, accepted_cons_of_ne h, accepted_nil, Option.or_none]

/-- One word is for one register. -/
theorem accepted_singleton_of_ne (h : other ≠ register) (word : UInt16) :
    accepted register.index [word] other = none := by
  have hindex : other.index ≠ register.index := by
    intro heq
    have hother := Register.ofIndex?_index other
    rw [heq, Register.ofIndex?_index] at hother
    exact h (Option.some.inj hother).symm
  rw [accepted_cons_of_ne hindex, accepted_nil]

theorem takes_of_accepted {words : List UInt16} {word : UInt16}
    (h : accepted start words register = some word) : register.takes word = true :=
  (Option.filter_eq_some_iff.mp h).2

end Accepted

namespace State

variable {s : State} {register : Register}

/-- The state after registers took the words given to them. -/
def take (s : State) (given : Register → Option UInt16) : State :=
  { s with
    valveCommand := (given .valveCommand).elim s.valveCommand UInt16.toUInt8
    setpoint := (given .setpoint).elim s.setpoint Tenths.decode
    mode := (given .mode).elim s.mode fun word => if word = 0 then .manual else .auto }

theorem take_none (s : State) : s.take (fun _ => none) = s := rfl

/-- Giving words twice is giving them once, the later ones before the earlier ones. -/
theorem take_take (s : State) (first second : Register → Option UInt16) :
    (s.take first).take second = s.take fun register => (second register).or (first register) := by
  unfold take
  dsimp only
  cases second .valveCommand <;> cases second .setpoint <;> cases second .mode <;> rfl

/-- Writing a word to a register gives it that word, if it takes it. -/
theorem write_eq_take (s : State) (register : Register) (word : UInt16) :
    s.write register word = s.take (accepted register.index [word]) := by
  have hself : accepted register.index [word] register =
      if register.takes word then some word else none := accepted_cons_self rfl word []
  have hother : ∀ other, other ≠ register → accepted register.index [word] other = none :=
    fun _ hne => accepted_singleton_of_ne hne word
  unfold write take
  cases register with
  | valveCommand =>
      rw [hself, hother .setpoint (by decide), hother .mode (by decide)]
      by_cases hword : word ≤ 100
      · simp [Register.takes, Valve.fullyOpen, hword]
      · simp [Register.takes, Valve.fullyOpen, hword]
  | setpoint =>
      rw [hself, hother .valveCommand (by decide), hother .mode (by decide)]
      by_cases hword : word ≤ 400
      · simp [Register.takes, largestSetpointWord, hword]
      · simp [Register.takes, largestSetpointWord, hword]
  | mode =>
      rw [hself, hother .valveCommand (by decide), hother .setpoint (by decide),
        ControlMode.ofCode?_eq]
      by_cases hword : word ≤ 1
      · simp [Register.takes, hword]
      · simp [Register.takes, hword]
  | _ =>
      rw [hother .valveCommand (by decide), hother .setpoint (by decide), hother .mode (by decide)]
      rfl

/-- Writing one word gives it to the register at its place, if there is one. -/
theorem writeRegister_eq_take (s : State) (index : Nat) (word : UInt16) :
    s.writeRegister index word = s.take (accepted index [word]) := by
  unfold writeRegister
  split
  · rename_i register hregister
    rw [← Register.index_of_ofIndex? hregister, write_eq_take]
  · rename_i hnone
    have hnobody : accepted index [word] = fun _ => none := by
      funext other
      have hindex : other.index ≠ index := by
        intro heq
        rw [← heq, Register.ofIndex?_index] at hnone
        cases hnone
      rw [accepted_cons_of_ne hindex, accepted_nil]
    rw [hnobody, take_none]

/-- **A run of words gives all registers their words at once.** -/
theorem writeBlock_eq_take (s : State) (start : Nat) (words : List UInt16) :
    s.writeBlock start words = s.take (accepted start words) := by
  induction words generalizing s start with
  | nil =>
      have hnone : accepted start [] = fun _ => none := funext (accepted_nil start)
      rw [hnone, take_none, writeBlock_nil]
  | cons word rest ih =>
      have hwords : accepted start (word :: rest) = fun register =>
          (accepted (start + 1) rest register).or (accepted start [word] register) :=
        funext (accepted_cons start word rest)
      rw [writeBlock_cons, ih, writeRegister_eq_take, take_take, hwords]

/-- **So do the words of a whole bank.** -/
theorem writeAll_eq_take (s : State) (words : Registers) :
    s.writeAll words = s.take (accepted 0 words.toList) := by
  have hword : ∀ register : Register,
      accepted register.index [words.get ⟨register.index, register.index_lt⟩] register =
        accepted 0 words.toList register := by
    intro register
    have hoffered : writtenAt 0 words.toList register =
        some (words.get ⟨register.index, register.index_lt⟩) := by
      rw [writtenAt, if_pos (Nat.zero_le _), Nat.sub_zero]
      simp [Vector.get]
    rw [accepted, accepted, hoffered, writtenAt_cons_self rfl]
  have hother : ∀ register other : Register, other ≠ register → ∀ word,
      accepted register.index [word] other = none :=
    fun _ _ hne word => accepted_singleton_of_ne hne word
  unfold writeAll Register.writable
  simp only [List.foldl_cons, List.foldl_nil, write_eq_take, take_take]
  unfold take
  simp only [hword, hother .valveCommand .setpoint (by decide),
    hother .valveCommand .mode (by decide),
    hother .setpoint .valveCommand (by decide), hother .setpoint .mode (by decide),
    hother .mode .valveCommand (by decide), hother .mode .setpoint (by decide),
    Option.or_none, Option.none_or]

/-- **A register shows the word that it took, and what it showed before if it took none.** -/
theorem publish_take (s : State) {given : Register → Option UInt16}
    (h : ∀ register word, given register = some word → register.takes word = true)
    (register : Register) :
    (s.take given).publish register = (given register).getD (s.publish register) := by
  cases hgiven : given register with
  | none =>
      rw [Option.getD_none]
      unfold take publish
      cases register with
      | valveCommand | setpoint | mode =>
          dsimp only
          rw [hgiven]
          rfl
      | _ => rfl
  | some word =>
      have htakes := h register word hgiven
      rw [Option.getD_some]
      unfold take publish
      cases register with
      | valveCommand =>
          have hword : word ≤ 100 := of_decide_eq_true htakes
          rw [UInt16.le_iff_toNat_le] at hword
          change word.toNat ≤ 100 at hword
          dsimp only
          rw [hgiven, Option.elim_some]
          apply UInt16.toNat_inj.mp
          rw [UInt8.toNat_toUInt16, UInt16.toNat_toUInt8]
          omega
      | setpoint =>
          dsimp only
          rw [hgiven, Option.elim_some, Tenths.encode_decode]
      | mode =>
          have hword : word ≤ 1 := of_decide_eq_true htakes
          have hmode : ControlMode.ofCode? word = some (if word = 0 then .manual else .auto) := by
            rw [ControlMode.ofCode?_eq, if_pos hword]
          dsimp only
          rw [hgiven, Option.elim_some]
          exact (ControlMode.ofCode?_eq_some_iff.mp hmode).symm
      | _ => cases htakes

/-- After a run of words each register shows the word that it took, if it took one. -/
theorem registers_writeBlock_getElem? (s : State) (start : Nat) (words : List UInt16)
    (register : Register) :
    (s.writeBlock start words).registers[register.index]? =
      some ((accepted start words register).getD (s.publish register)) := by
  rw [registers_getElem?_index, writeBlock_eq_take,
    publish_take s (fun _ _ => takes_of_accepted) register]

/-- **What a run of words does.**  A register that takes its word of the run reads back exactly that
word, and every other register reads as before; no field of the plant changes but the three that
clients write, and of these none whose register took no word. -/
theorem reads_back (s : State) (start : UInt16) (words : List UInt16) :
    let t := s.writeBlock start.toNat words
    (∀ register word, accepted start.toNat words register = some word →
      t.registers[register.index]? = some word) ∧
    (∀ register, accepted start.toNat words register = none →
      t.registers[register.index]? = s.registers[register.index]?) ∧
    t = { s with valveCommand := t.valveCommand, setpoint := t.setpoint, mode := t.mode } ∧
    (accepted start.toNat words .valveCommand = none → t.valveCommand = s.valveCommand) ∧
    (accepted start.toNat words .setpoint = none → t.setpoint = s.setpoint) ∧
    (accepted start.toNat words .mode = none → t.mode = s.mode) := by
  intro t
  have ht : t = s.take (accepted start.toNat words) := writeBlock_eq_take s start.toNat words
  refine ⟨?_, ?_, ?_, ?_, ?_, ?_⟩
  · intro register word h
    rw [registers_writeBlock_getElem?, h, Option.getD_some]
  · intro register h
    rw [registers_writeBlock_getElem?, h, Option.getD_none, registers_getElem?_index]
  · rw [ht]
    rfl
  · intro h
    rw [ht, take, h, Option.elim_none]
  · intro h
    rw [ht, take, h, Option.elim_none]
  · intro h
    rw [ht, take, h, Option.elim_none]

/-- A block over the three writable registers and the one after them, with a setpoint out of range,
on a plant whose setpoint is no tenth of a degree. -/
theorem reads_back_partly :
    let s := { initial with setpoint := 20.05 }
    let t := s.writeBlock (1 : UInt16).toNat [77, 401, 0, 5]
    accepted 1 [77, 401, 0, 5] .valveCommand = some 77 ∧
      accepted 1 [77, 401, 0, 5] .setpoint = none ∧
      accepted 1 [77, 401, 0, 5] .mode = some 0 ∧
      accepted 1 [77, 401, 0, 5] .outsideTemperature = none ∧
      t.registers[Register.valveCommand.index]? = some 77 ∧ t.setpoint = 20.05 ∧
      t.registers[Register.mode.index]? = some 0 ∧
      t.registers[Register.outsideTemperature.index]? =
        s.registers[Register.outsideTemperature.index]? := by
  intro s t
  have hvalve : accepted 1 [77, 401, 0, 5] .valveCommand = some 77 := by decide
  have hsetpoint : accepted 1 [77, 401, 0, 5] .setpoint = none := by decide
  have hmode : accepted 1 [77, 401, 0, 5] .mode = some 0 := by decide
  have houtside : accepted 1 [77, 401, 0, 5] .outsideTemperature = none := by decide
  obtain ⟨hread, hkept, -, -, hexact, -⟩ := reads_back s 1 [77, 401, 0, 5]
  exact ⟨hvalve, hsetpoint, hmode, houtside, hread _ _ hvalve, hexact hsetpoint, hread _ _ hmode,
    hkept _ houtside⟩

end State

end HeatingPlant
