import HeatingPlant.Decimal.Binary64

/-!
# The fewest digits that read back

A positive binary64 number lies in an interval of reals that all round to it.  Of the decimals in
that interval those with the fewest digits identify the number; of these the nearest one is chosen.

## Main definitions

* `Numeral` — a whole number times a power of ten
* `Interval` — the reals that round to a number
* `shortest` — the chosen decimal

## Design notes

Everything is exact arithmetic on natural numbers, on one common denominator.  For one digit, two
digits and so on the two neighbours of the number on that decimal grid are tried: if any point of a
grid lies in the interval, one of these two does.  An exact tie between them goes up.  Seventeen
digits always suffice.
-/

namespace HeatingPlant.Decimal

/-- The number `digits * 10 ^ exponent`. -/
structure Numeral where
  /-- The digits, as a whole number. -/
  digits : Nat
  /-- The power of ten. -/
  exponent : Int
  deriving DecidableEq, Repr

/-- The reals that round to a number, as multiples of one unit: the number itself and the two ends.
The unit is `1 / denominator`. -/
structure Interval where
  /-- Lower end. -/
  low : Nat
  /-- The number. -/
  value : Nat
  /-- Upper end. -/
  high : Nat
  /-- Whether the ends belong to the interval. -/
  closed : Bool
  /-- Units in one. -/
  denominator : Nat
  deriving Repr

/-- The reals that round to `mantissa * 2 ^ exponent`.  The neighbour below a power of two is
nearer, unless that power is the smallest. -/
def Interval.ofBinary (mantissa : Nat) (exponent : Int) : Interval :=
  let scale := exponent - 2
  let up := Nat.pow 2 scale.toNat
  { low := (4 * mantissa - if mantissa = Nat.pow 2 52 ∧ -1074 < exponent then 1 else 2) * up
    value := 4 * mantissa * up
    high := (4 * mantissa + 2) * up
    closed := mantissa % 2 = 0
    denominator := Nat.pow 2 (-scale).toNat }

/-- Whether `digits * 10 ^ exponent` lies in the interval. -/
def Interval.contains (interval : Interval) (digits : Nat) (exponent : Int) : Bool :=
  let point := digits * Nat.pow 10 exponent.toNat * interval.denominator
  let unit := Nat.pow 10 (-exponent).toNat
  let low := interval.low * unit
  let high := interval.high * unit
  if interval.closed then low ≤ point && point ≤ high else low < point && point < high

/-- Number of decimal digits of a positive whole number. -/
def digitCount (n : Nat) : Nat := (Nat.toDigits 10 n).length

/-- The power of ten of the leading digit of `numerator / denominator`. -/
def leadingExponent (numerator denominator : Nat) : Int :=
  if denominator ≤ numerator then (digitCount (numerator / denominator) : Int) - 1
  else
    let places := digitCount (denominator / numerator)
    if denominator ≤ numerator * Nat.pow 10 (places - 1) then 1 - (places : Int)
    else -(places : Int)

/-- The decimal with `count` digits nearest to the number, among those of the two neighbours on that
grid that lie in the interval. -/
def Interval.nearestOn (interval : Interval) (exponent : Int) : Option Numeral :=
  let numerator := interval.value * Nat.pow 10 (-exponent).toNat
  let denominator := interval.denominator * Nat.pow 10 exponent.toNat
  let below := numerator / denominator
  let remainder := numerator % denominator
  let below? := interval.contains below exponent
  let above? := interval.contains (below + 1) exponent
  if below? && (!above? || 2 * remainder < denominator) then some ⟨below, exponent⟩
  else if above? then some ⟨below + 1, exponent⟩
  else none

/-- A numeral with its trailing zeros moved into the exponent, at most `fuel` of them. -/
def Numeral.strip : (fuel : Nat) → Numeral → Numeral
  | 0, numeral => numeral
  | fuel + 1, numeral =>
    if numeral.digits ≠ 0 ∧ numeral.digits % 10 = 0 then
      strip fuel ⟨numeral.digits / 10, numeral.exponent + 1⟩
    else numeral

/-- The decimal with the fewest digits that reads back as `mantissa * 2 ^ exponent`, and of those
the nearest; zero for zero. -/
def shortest (mantissa : Nat) (exponent : Int) : Numeral :=
  if mantissa = 0 then ⟨0, 0⟩
  else
    let interval := Interval.ofBinary mantissa exponent
    let leading := leadingExponent interval.value interval.denominator
    let exact : Numeral := ⟨interval.value * Nat.pow 10 1074 / interval.denominator, -1074⟩
    let grids := (List.range 17).map fun more => leading - Int.ofNat more
    ((grids.findSome? interval.nearestOn).getD exact).strip 1500

end HeatingPlant.Decimal
