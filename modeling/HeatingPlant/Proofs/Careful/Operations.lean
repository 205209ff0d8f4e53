import HeatingPlant.Number.Word

/-!
# Operations that may go wrong

Words of a machine have a largest value, and buffers have an end.  Here an operation is carried
out exactly, and then it is looked at: whether the result fits its word, whether the position lies
in the buffer.  A computation that is written in such operations and comes to a result has met
with no mishap on its way.

## Main definitions

* `Mishap`, `Careful` — what can go wrong, and computations in which it can
* `Careful.int32`, `Careful.size` — results of operations on signed 32-bit words, and on sizes
  and positions
* `Careful.byte`, `Careful.word` — a number cut to 8 or 16 bits, if it keeps its value
* `Careful.get`, `Careful.skip` — an entry of a buffer, and what comes after its first entries
* `Careful.wordAt`, `Careful.words` — big-endian words in a buffer

## Main statements

* `Careful.size_eq_ok_iff`, `Careful.byte_eq_ok_iff`, `Careful.word_eq_ok_iff` — what an
  operation comes to is the exact result
* `Careful.words_eq` — the words of a byte string are read without a mishap

## Design notes

An operation that is not come to cannot go wrong: a careful computation stands for the operations
of the branch that it takes, and for no others.  Sizes are held to 32 bits, since a machine with
wider ones has no mishap that a machine with these does not have.
-/

namespace HeatingPlant

/-- What can go wrong with an operation on words and buffers. -/
inductive Mishap where
  /-- The result does not fit its word. -/
  | overflow
  /-- The position lies outside of the buffer. -/
  | outOfBounds
  /-- A number was cut to fewer bits than it has. -/
  | truncated
  deriving DecidableEq, Repr

/-- A computation in which an operation may go wrong; the first mishap ends it. -/
abbrev Careful := Except Mishap

namespace Careful

variable {α β : Type}

@[simp] theorem ok_bind (a : α) (f : α → Careful β) :
    ((Except.ok a : Careful α) >>= f) = f a := rfl

@[simp] theorem map_ok (f : α → β) (a : α) :
    f <$> (Except.ok a : Careful α) = .ok (f a) := rfl

/-! ### Numbers -/

/-- A number between two others, and otherwise a mishap. -/
def within (mishap : Mishap) (low high number : Int) : Careful Int :=
  if low ≤ number ∧ number ≤ high then .ok number else .error mishap

/-- The result of an operation on signed 32-bit words. -/
def int32 : Int → Careful Int := within .overflow (-2147483648) 2147483647

/-- The largest size of a buffer. -/
def largestSize : Nat := 4294967295

/-- The result of an operation on sizes and positions. -/
def size (number : Int) : Careful Nat := Int.toNat <$> within .overflow 0 largestSize number

/-- The byte of a number that is one. -/
def byte (number : Int) : Careful UInt8 :=
  (fun fitting => UInt8.ofNat fitting.toNat) <$> within .truncated 0 255 number

/-- The word of a number that is one. -/
def word (number : Int) : Careful UInt16 :=
  (fun fitting => UInt16.ofNat fitting.toNat) <$> within .truncated 0 65535 number

section

variable {mishap : Mishap} {low high number result : Int} {n : Nat}

/-- A result is the number itself, and it fits. -/
theorem within_eq_ok_iff :
    within mishap low high number = .ok result ↔
      result = number ∧ low ≤ number ∧ number ≤ high := by
  unfold within
  split
  · rename_i hfits
    rw [Except.ok.injEq, eq_comm, and_iff_left hfits]
  · rename_i hfits
    exact iff_of_false nofun fun h => hfits h.2

theorem map_eq_ok_iff {f : α → β} {x : Careful α} {b : β} :
    f <$> x = .ok b ↔ ∃ a, x = .ok a ∧ f a = b := by
  cases x with
  | ok a => simp
  | error mishap => exact iff_of_false nofun nofun

/-- **The result of an operation on sizes is exact**, and a size itself. -/
theorem size_eq_ok_iff : size number = .ok n ↔ number = n ∧ n ≤ largestSize := by
  simp only [size, map_eq_ok_iff, within_eq_ok_iff]
  constructor
  · rintro ⟨_, ⟨rfl, hlow, hhigh⟩, rfl⟩
    omega
  · rintro ⟨rfl, hn⟩
    exact ⟨n, ⟨rfl, by omega, by omega⟩, Int.toNat_natCast n⟩

/-- **A number cut to a byte is the number of that byte.** -/
theorem byte_eq_ok_iff {cut : UInt8} : byte number = .ok cut ↔ number = cut.toNat := by
  have hcut := cut.toNat_lt
  simp only [byte, map_eq_ok_iff, within_eq_ok_iff]
  constructor
  · rintro ⟨_, ⟨rfl, hlow, hhigh⟩, rfl⟩
    rw [UInt8.toNat_ofNat']
    omega
  · rintro rfl
    exact ⟨_, ⟨rfl, by omega, by omega⟩, UInt8.ofNat_toNat⟩

/-- **A number cut to a word is the number of that word.** -/
theorem word_eq_ok_iff {cut : UInt16} : word number = .ok cut ↔ number = cut.toNat := by
  have hcut := cut.toNat_lt
  simp only [word, map_eq_ok_iff, within_eq_ok_iff]
  constructor
  · rintro ⟨_, ⟨rfl, hlow, hhigh⟩, rfl⟩
    rw [UInt16.toNat_ofNat']
    omega
  · rintro rfl
    exact ⟨_, ⟨rfl, by omega, by omega⟩, UInt16.ofNat_toNat⟩

theorem int32_eq (hlow : -2147483648 ≤ number) (hhigh : number ≤ 2147483647) :
    int32 number = .ok number := within_eq_ok_iff.mpr ⟨rfl, hlow, hhigh⟩

theorem size_eq (h : number = n) (hn : n ≤ largestSize) : size number = .ok n :=
  size_eq_ok_iff.mpr ⟨h, hn⟩

theorem byte_eq (hlow : 0 ≤ number) (hhigh : number ≤ 255) :
    byte number = .ok (UInt8.ofNat number.toNat) := by
  rw [byte_eq_ok_iff, UInt8.toNat_ofNat']
  omega

theorem word_eq (hlow : 0 ≤ number) (hhigh : number ≤ 65535) :
    word number = .ok (UInt16.ofNat number.toNat) := by
  rw [word_eq_ok_iff, UInt16.toNat_ofNat']
  omega

end

/-! ### Buffers -/

/-- The entry of a buffer at a position. -/
def get (buffer : List α) (position : Nat) : Careful α :=
  match buffer[position]? with
  | some entry => .ok entry
  | none => .error .outOfBounds

/-- The entries of a buffer from a position on; the position may be its end. -/
def skip (buffer : List α) (position : Nat) : Careful (List α) :=
  if position ≤ buffer.length then .ok (buffer.drop position) else .error .outOfBounds

@[simp] theorem get_cons_zero (entry : α) (buffer : List α) :
    get (entry :: buffer) 0 = .ok entry :=
  rfl

theorem skip_eq {buffer : List α} {position : Nat} (h : position ≤ buffer.length) :
    skip buffer position = .ok (buffer.drop position) := if_pos h

/-- The word at a position of a byte string, high byte first. -/
def wordAt (bytes : List UInt8) (position : Nat) : Careful UInt16 := do
  let high ← get bytes position
  let next ← size (position + 1)
  let low ← get bytes next
  return Word.ofBytes high low

/-- The bytes two by two; a byte left over at the end is dropped. -/
def pairs : List UInt8 → List (List UInt8)
  | high :: low :: rest => [high, low] :: pairs rest
  | _ => []

/-- The words of a byte string, each read from its own pair of bytes. -/
def words (bytes : List UInt8) : Careful (List UInt16) :=
  (pairs bytes).mapM fun pair => do
    let high ← get pair 0
    let low ← get pair 1
    return Word.ofBytes high low

/-- **Both bytes of every word are there.** -/
theorem words_eq : ∀ bytes : List UInt8, words bytes = .ok (Word.listOfBytes bytes)
  | [] => rfl
  | [_] => rfl
  | high :: low :: rest => by
    have hrest := words_eq rest
    unfold words at hrest
    rw [words, pairs, List.mapM_cons, hrest]
    rfl

end Careful

end HeatingPlant
