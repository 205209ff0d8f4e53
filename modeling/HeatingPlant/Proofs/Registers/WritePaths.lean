import HeatingPlant.Proofs.Facility.LastWriter

/-!
# All ways to write agree

A run of words can be written as a block, as several blocks, word by word in any order, or, if it
is a whole bank, through the writable registers alone.  The plant comes out the same.

## Main definitions

* `State.writeEach` — words written one by one, each at a position of its own
* `State.writeBlocks` — blocks written one behind the other
* `Modbus.Action.single` — the request that writes one word

## Main statements

* `State.writeRegister_comm` — writes at different positions commute
* `State.writeEach_perm` — so that the order of the words of a run does not matter
* `State.writes_agree` — all ways to write a run of words

## Design notes

Two writes commute because each is an assignment of words to registers
(`State.writeRegister_eq_take`) and one position is that of one register at most.  The positions
of a run are all different, which is the only thing that the order of its words depends on.
-/

namespace HeatingPlant

open Modbus

namespace State

variable {i j start : ℕ}

/-! ### Words in any order -/

/-- The state after words were written one by one, each at its position. -/
def writeEach (s : State) (writes : List (UInt16 × ℕ)) : State :=
  writes.foldl (fun s write => s.writeRegister write.2 write.1) s

@[simp] theorem writeEach_cons (s : State) (write : UInt16 × ℕ) (rest : List (UInt16 × ℕ)) :
    s.writeEach (write :: rest) = (s.writeRegister write.2 write.1).writeEach rest := rfl

/-- **Writes at different positions commute.** -/
theorem writeRegister_comm (h : i ≠ j) (s : State) (first second : UInt16) :
    (s.writeRegister i first).writeRegister j second =
      (s.writeRegister j second).writeRegister i first := by
  simp only [writeRegister_eq_take, take_take]
  congr 1
  funext register
  -- a register is at one of the two positions at most
  by_cases hi : register.index = i
  · have hj : register.index ≠ j := hi ▸ h
    rw [accepted_cons_of_ne hj, accepted_nil, Option.none_or, Option.or_none]
  · rw [accepted_cons_of_ne hi, accepted_nil, Option.none_or, Option.or_none]

/-- A block is its words, each at the position behind the one before. -/
theorem writeEach_zipIdx (s : State) (start : ℕ) (words : List UInt16) :
    s.writeEach (words.zipIdx start) = s.writeBlock start words := by
  induction words generalizing s start with
  | nil => rfl
  | cons word rest ih => rw [List.zipIdx_cons, writeEach_cons, ih, writeBlock_cons]

/-- **The words of a block may be written in any order.** -/
theorem writeEach_perm {words : List UInt16} {writes : List (UInt16 × ℕ)}
    (h : writes.Perm (words.zipIdx start)) (s : State) :
    s.writeEach writes = s.writeBlock start words := by
  rw [← writeEach_zipIdx]
  refine (h.symm.foldl_eq' ?_ s).symm
  rintro ⟨first, i⟩ hfirst ⟨second, j⟩ hsecond t
  rw [List.mk_mem_zipIdx_iff_le_and_getElem?_sub] at hfirst hsecond
  by_cases hij : i = j
  · -- at one position of a block there is one word
    subst hij
    obtain rfl : first = second := Option.some.inj (hfirst.2.symm.trans hsecond.2)
    rfl
  · exact writeRegister_comm hij t first second

/-! ### Several blocks -/

/-- The state after blocks were written, each from where the one before ended. -/
def writeBlocks (s : State) (start : ℕ) : List (List UInt16) → State
  | [] => s
  | block :: rest => (s.writeBlock start block).writeBlocks (start + block.length) rest

/-- **Blocks written one behind the other are one block.** -/
theorem writeBlocks_eq (s : State) (start : ℕ) (blocks : List (List UInt16)) :
    s.writeBlocks start blocks = s.writeBlock start blocks.flatten := by
  induction blocks generalizing s start with
  | nil => rfl
  | cons block rest ih => rw [writeBlocks, ih, List.flatten_cons, writeBlock_append]

/-- A whole bank is the block of all its words. -/
theorem writeAll_eq_writeBlock (s : State) (words : Registers) :
    s.writeAll words = s.writeBlock 0 words.toList := by
  rw [writeAll_eq_take, writeBlock_eq_take]

end State

/-! ### Requests -/

/-- The request that writes one word at a position. -/
def Modbus.Action.single (write : UInt16 × ℕ) : Action :=
  .writeSingle (UInt16.ofNat write.2) write.1

namespace State

/-- Requests for single registers do what the writes do, at positions that have an address. -/
theorem run_single (dynamics : Dynamics) (s : State) {writes : List (UInt16 × ℕ)}
    (h : ∀ write ∈ writes, write.2 < 65536) :
    s.run dynamics (writes.map fun write => .request (.single write)) = s.writeEach writes := by
  induction writes generalizing s with
  | nil => rfl
  | cons write rest ih =>
      obtain ⟨hwrite, hrest⟩ := List.forall_mem_cons.mp h
      have haddress : (UInt16.ofNat write.2).toNat = write.2 := UInt16.toNat_ofNat_of_lt' hwrite
      have hfirst : s.after dynamics (.request (.single write)) =
          s.writeRegister (UInt16.ofNat write.2).toNat write.1 := rfl
      rw [List.map_cons, run_cons, ih _ hrest, writeEach_cons, hfirst, haddress]

/-- The positions of a run that ends before the last address are addresses. -/
theorem lt_of_mem_zipIdx {start : ℕ} {words : List UInt16}
    (hroom : start + words.length ≤ 65536) {writes : List (UInt16 × ℕ)}
    (h : writes.Perm (words.zipIdx start)) :
    ∀ write ∈ writes, write.2 < 65536 := by
  intro write hwrite
  have hlt := List.snd_lt_add_of_mem_zipIdx (h.subset hwrite)
  omega

/-- **All ways to write a run of words agree.**  Word by word in any order, in blocks one behind
the other and, for a whole bank, through its writable registers, the plant becomes what it becomes
by the one block; and so it does by requests for single registers in any order, if all the
positions have addresses. -/
theorem writes_agree (s : State) (start : UInt16) (values : List UInt16) :
    (∀ writes, writes.Perm (values.zipIdx start.toNat) →
      s.writeEach writes = s.writeBlock start.toNat values ∧
      (start.toNat + values.length ≤ 65536 → ∀ dynamics,
        s.run dynamics (writes.map fun write => .request (.single write)) =
          s.run dynamics [.request (.writeMultiple start values)])) ∧
    (∀ blocks, blocks.flatten = values →
      s.writeBlocks start.toNat blocks = s.writeBlock start.toNat values) ∧
    (∀ words : Registers, s.writeAll words = s.writeBlock 0 words.toList) := by
  refine ⟨fun writes horder => ⟨writeEach_perm horder s, ?_⟩, ?_, s.writeAll_eq_writeBlock⟩
  · intro hroom dynamics
    rw [run_single dynamics s (lt_of_mem_zipIdx hroom horder), writeEach_perm horder]
    rfl
  · rintro blocks rfl
    exact s.writeBlocks_eq start.toNat blocks

/-- The three writable registers of the plant at rest and the one after them, last word first, and
in two blocks; a setpoint out of range among them. -/
theorem writes_agree_backwards :
    let values : List UInt16 := [77, 401, 0, 5]
    let writes : List (UInt16 × ℕ) := [(5, 4), (0, 3), (401, 2), (77, 1)]
    let dynamics := Settings.reference.dynamics
    writes.Perm (values.zipIdx (1 : UInt16).toNat) ∧
      initial.writeEach writes = initial.writeBlock (1 : UInt16).toNat values ∧
      initial.run dynamics [.request (.writeSingle 4 5), .request (.writeSingle 3 0),
          .request (.writeSingle 2 401), .request (.writeSingle 1 77)] =
        initial.run dynamics [.request (.writeMultiple 1 values)] ∧
      initial.writeBlocks (1 : UInt16).toNat [[77, 401], [0, 5]] =
        initial.writeBlock (1 : UInt16).toNat values ∧
      (initial.writeBlock (1 : UInt16).toNat values).valveCommand = 77 := by
  intro values writes dynamics
  have horder : writes.Perm (values.zipIdx (1 : UInt16).toNat) := by decide
  obtain ⟨hany, hblocks, -⟩ := writes_agree initial 1 values
  obtain ⟨heach, hrequests⟩ := hany writes horder
  exact ⟨horder, heach, hrequests (by decide) dynamics, hblocks _ rfl, by decide +kernel⟩

end State

end HeatingPlant
