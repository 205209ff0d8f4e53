import HeatingPlant.Number.Whole

/-!
# The valve actuator

The valve travels toward its command by a limited number of whole percent per tick.

## Main definitions

* `Valve.slew` — the position after one tick

## Design notes

Positions are bytes, since a client's view may hold more than 100; travel is computed in `Int`,
where no step overflows.  The largest travel may be negative or huge: it is whatever the truncation
of `slew rate × time` gives.
-/

namespace HeatingPlant.Valve

/-- A fully open valve [%]. -/
def fullyOpen : UInt8 := 100

/-- An opening in percent, held between shut and fully open. -/
def ofPercent (percent : Int) : UInt8 :=
  UInt8.ofNat (Number.hold 0 fullyOpen.toNat percent).toNat

/-- The position after one tick: `command`, or as far toward it as `travel` percent allow. -/
def slew (position command : UInt8) (travel : Int) : UInt8 :=
  let here : Int := position.toNat
  let there : Int := command.toNat
  let gap := there - here
  ofPercent
    (if gap > travel then here + travel
     else if gap < -travel then here - travel
     else there)

theorem toNat_ofPercent (percent : Int) :
    ((ofPercent percent).toNat : Int) = Number.hold 0 100 percent := by
  have h0 := Number.le_hold 0 100 percent
  have h1 := Number.hold_le (show (0 : Int) ≤ 100 by decide) percent
  have he : fullyOpen.toNat = 100 := rfl
  simp only [ofPercent, he, UInt8.toNat_ofNat']
  show ((Number.hold 0 100 percent).toNat % 2 ^ 8 : Nat) = Number.hold 0 100 percent
  omega

theorem ofPercent_le (percent : Int) : ofPercent percent ≤ fullyOpen := by
  have h1 := Number.hold_le (show (0 : Int) ≤ 100 by decide) percent
  have h := toNat_ofPercent percent
  rw [UInt8.le_iff_toNat_le]
  have he : fullyOpen.toNat = 100 := rfl
  omega

theorem slew_le (position command : UInt8) (travel : Int) :
    slew position command travel ≤ fullyOpen := ofPercent_le _

end HeatingPlant.Valve
