/-!
# Whole numbers in and out of `Float`

Rounding a measured quantity to a whole number, and casting it to a bounded integer.

## Main definitions

* `truncate`, `nearest` — the whole part, and the nearest whole number with halves away from zero
* `toIntWithin` — truncation toward zero, held inside an integer interval

## Design notes

Only operations with a logical model in core are used (`+`, `-`, comparison, `toUInt64`,
`UInt64.toFloat`), so that every function here computes in the kernel.  From `2 ^ 52` on, each
finite `Float` is a whole number already, and below it the whole part fits a `UInt64` exactly.
-/

namespace HeatingPlant.Number

/-- From this magnitude on every finite `Float` is a whole number. -/
def wholeFrom : Float := 4503599627370496

/-- `magnitude` with the sign of `x`. -/
def withSignOf (x magnitude : Float) : Float :=
  if x < 0 then -magnitude else magnitude

/-- The whole part of `x`, toward zero; a value without one (NaN, an infinity) is kept. -/
def truncate (x : Float) : Float :=
  let a := x.abs
  if a < wholeFrom then withSignOf x a.toUInt64.toFloat else x

/-- The whole number nearest to `x`, halves away from zero. -/
def nearest (x : Float) : Float :=
  let a := x.abs
  if a < wholeFrom then
    let whole := a.toUInt64.toFloat
    withSignOf x (if a - whole < 0.5 then whole else whole + 1)
  else x

/-- `n` moved to the nearest end of the interval from `lo` to `hi` if it lies outside. -/
def hold (lo hi n : Int) : Int := max lo (min hi n)

theorem hold_le {lo hi : Int} (h : lo ≤ hi) (n : Int) : hold lo hi n ≤ hi := by
  unfold hold; omega

theorem le_hold (lo hi n : Int) : lo ≤ hold lo hi n := by
  unfold hold; omega

theorem hold_of_mem {lo hi n : Int} (hlo : lo ≤ n) (hhi : n ≤ hi) : hold lo hi n = n := by
  unfold hold; omega

/-- `x` truncated toward zero and held between `lo` and `hi`; NaN counts as zero.  Exact for
intervals that a 64-bit magnitude covers. -/
def toIntWithin (lo hi : Int) (x : Float) : Int :=
  hold lo hi (if x < 0 then -((-x).toUInt64.toNat : Int) else (x.toUInt64.toNat : Int))

/-- Truncation to the range of a signed 32-bit integer. -/
def toInt32 (x : Float) : Int := toIntWithin (-2147483648) 2147483647 x

/-- Truncation to the range of a signed 16-bit integer. -/
def toInt16 (x : Float) : Int := toIntWithin (-32768) 32767 x

theorem toInt16_bounds (x : Float) : -32768 ≤ toInt16 x ∧ toInt16 x ≤ 32767 :=
  ⟨le_hold _ _ _, hold_le (by decide) _⟩

end HeatingPlant.Number
