import HeatingPlant.Number.Whole

/-!
# Fixed-point words in tenths

Temperatures and powers travel in 16-bit words as tenths of a degree or kilowatt.

## Main definitions

* `Tenths.ofFloat` — ten times a quantity, as a whole number
* `Tenths.encode`, `Tenths.encodeSigned` — its word, unsigned or in two's complement
* `Tenths.decode` — the quantity that an unsigned word stands for

## Design notes

A quantity is cut toward zero, except that a product within `slack` of a whole number counts as that
number: so an exact tenth, whose product may come out a hair low, keeps its value.
-/

namespace HeatingPlant.Tenths

/-- Products this close to a whole number count as that number. -/
def slack : Float := 0.000001

/-- Ten times `quantity`, as a whole number. -/
def ofFloat (quantity : Float) : Float :=
  let scaled := quantity * 10
  let near := Number.nearest scaled
  if (scaled - near).abs < slack then near else Number.truncate scaled

/-- The unsigned word of a quantity; below the range it is 0, beyond it the largest word. -/
def encode (quantity : Float) : UInt16 := (ofFloat quantity).toUInt16

/-- The two's complement word of a quantity, held inside the signed range. -/
def encodeSigned (quantity : Float) : UInt16 := UInt16.ofInt (Number.toInt16 (ofFloat quantity))

/-- The quantity that an unsigned word stands for. -/
def decode (word : UInt16) : Float := word.toFloat / 10

end HeatingPlant.Tenths
