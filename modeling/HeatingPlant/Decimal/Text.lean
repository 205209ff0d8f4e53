import HeatingPlant.Decimal.Shortest

/-!
# Decimal text

Writing a `Float` in positional notation.

## Main definitions

* `naturalText` — a whole number
* `positional` — digits with the point in its place
* `shortestText` — a `Float` with the fewest digits that read back
* `fixedText` — a `Float` rounded to a fixed number of places

## Design notes

There is never an exponent, so that a large number has many zeros before its point and a small one
after it.  A whole number has no point.  Rounding to a fixed number of places looks at the exact
value of the `Float`, and a tie goes to the even neighbour.  The sign of zero is written.
-/

namespace HeatingPlant.Decimal

/-- The digits of a whole number. -/
def naturalText (n : Nat) : String := String.ofList (Nat.toDigits 10 n)

/-- The text of `digits` with `places` of them after the point, padded with zeros before it. -/
def pointed (digits : List Char) (places : Nat) : List Char :=
  let padded := List.replicate (places + 1 - digits.length) '0' ++ digits
  padded.take (padded.length - places) ++ '.' :: padded.drop (padded.length - places)

/-- A numeral in positional notation. -/
def positional (numeral : Numeral) : List Char :=
  let digits := Nat.toDigits 10 numeral.digits
  if 0 ≤ numeral.exponent then digits ++ List.replicate numeral.exponent.toNat '0'
  else pointed digits (-numeral.exponent).toNat

/-- The sign of a number. -/
def signText (negative : Bool) : String := if negative then "-" else ""

/-- A `Float` with the fewest digits that read back. -/
def shortestText (x : Float) : String :=
  match Binary64.ofFloat x with
  | .notANumber => "NaN"
  | .infinite negative => signText negative ++ "inf"
  | .finite negative mantissa exponent =>
    signText negative ++ String.ofList (positional (shortest mantissa exponent))

/-- The whole number nearest to `numerator / denominator`, a tie going to the even one. -/
def roundDiv (numerator denominator : Nat) : Nat :=
  let quotient := numerator / denominator
  let remainder := numerator % denominator
  if 2 * remainder < denominator then quotient
  else if denominator < 2 * remainder then quotient + 1
  else quotient + quotient % 2

/-- A `Float` rounded to `places` digits after the point, for a positive number of places. -/
def fixedText (places : Nat) (x : Float) : String :=
  match Binary64.ofFloat x with
  | .notANumber => "NaN"
  | .infinite negative => signText negative ++ "inf"
  | .finite negative mantissa exponent =>
    let scaled := mantissa * Nat.pow 2 exponent.toNat * Nat.pow 10 places
    let rounded := roundDiv scaled (Nat.pow 2 (-exponent).toNat)
    signText negative ++ String.ofList (pointed (Nat.toDigits 10 rounded) places)

end HeatingPlant.Decimal
