/-!
# Hexadecimal text

Lower-case hexadecimal digits of bytes and words.

## Main definitions

* `Hex.digit`, `Hex.digits` — one digit, and a fixed number of them
* `Hex.word` — the four digits of a word
* `Hex.value?` — the value of a digit in either case
-/

namespace HeatingPlant.Hex

/-- The digit for a value below sixteen. -/
def digit (value : Nat) : Char :=
  if value < 10 then Char.ofNat (48 + value) else Char.ofNat (87 + value)

/-- The last `count` digits of `value`. -/
def digits : (count value : Nat) → List Char
  | 0, _ => []
  | count + 1, value => digits count (value / 16) ++ [digit (value % 16)]

/-- The four digits of a word. -/
def word (value : UInt16) : String := String.ofList (digits 4 value.toNat)

/-- The value of a hexadecimal digit, in either case. -/
def value? (c : Char) : Option Nat :=
  if '0' ≤ c ∧ c ≤ '9' then some (c.toNat - 48)
  else if 'a' ≤ c ∧ c ≤ 'f' then some (c.toNat - 87)
  else if 'A' ≤ c ∧ c ≤ 'F' then some (c.toNat - 55)
  else none

end HeatingPlant.Hex
