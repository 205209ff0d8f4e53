/-!
# The number behind a `Float`

A finite `Float` is a whole number times a power of two.

## Main definitions

* `Binary64` — what a `Float` stands for
* `Binary64.ofFloat` — read off its bits

## Design notes

The sign is kept for zero and for the infinities, and dropped for what is not a number.
-/

namespace HeatingPlant.Decimal

/-- What a `Float` stands for. -/
inductive Binary64 where
  /-- Not a number. -/
  | notANumber
  /-- An infinity. -/
  | infinite (negative : Bool)
  /-- The number `mantissa * 2 ^ exponent`, or its negative. -/
  | finite (negative : Bool) (mantissa : Nat) (exponent : Int)
  deriving DecidableEq, Repr

/-- What a `Float` stands for, from its bits. -/
def Binary64.ofFloat (x : Float) : Binary64 :=
  let bits : Nat := x.toBits.toNat
  let negative : Bool := Nat.pow 2 63 ≤ bits
  let biased : Nat := bits / Nat.pow 2 52 % Nat.pow 2 11
  let fraction : Nat := bits % Nat.pow 2 52
  if biased = 2047 then
    if fraction = 0 then .infinite negative else .notANumber
  else if biased = 0 then .finite negative fraction (-1074)
  else .finite negative (Nat.pow 2 52 + fraction) ((biased : Int) - 1075)

end HeatingPlant.Decimal
