import HeatingPlant.Proofs.Careful.Operations
import HeatingPlant.Proofs.Plant.ValveTravel

/-!
# The actuator does not overflow

How far the valve may travel is whatever 32-bit word the cast of a float gives, down to the least
and up to the largest one.  Added to a position the largest one overflows, and the least one has
no opposite; but the actuator compares before it computes, and comes to neither.

## Main definitions

* `Valve.slewCarefully` — the position after one tick, with every operation on 32-bit words
  looked at

## Main statements

* `Valve.slewCarefully_eq` — no operation that is come to overflows
* `Valve.slew_mono` — a valve that stands wider and is to stand wider ends up no narrower
* `Valve.slew_without_overflow` — both, and where the valve ends up

## Design notes

Either comparison bounds the travel on the side on which the next operation would overflow.  A
travel below the gap is less than 256, and can be added; a travel not below it is more than -256,
and has an opposite.
-/

namespace HeatingPlant.Valve

variable {position command wider farther : UInt8} {travel : ℤ}

/-- The position after one tick.  Gap, opposite and sums are 32-bit words, and each of them is
computed in the branch that needs it; the percentage at the end is a byte. -/
def slewCarefully (position command : UInt8) (travel : ℤ) : Careful UInt8 := do
  let here : ℤ := position.toNat
  let there : ℤ := command.toNat
  let gap ← Careful.int32 (there - here)
  let next ←
    if gap > travel then Careful.int32 (here + travel)
    else do
      let backward ← Careful.int32 (-travel)
      if gap < backward then Careful.int32 (here - travel) else pure there
  Careful.byte (Number.hold 0 fullyOpen.toNat next)

/-- A percentage is a byte. -/
theorem byte_hold (percent : ℤ) :
    Careful.byte (Number.hold 0 fullyOpen.toNat percent) = .ok (ofPercent percent) := by
  have hopen : fullyOpen.toNat = 100 := rfl
  have hlow := Number.le_hold 0 fullyOpen.toNat percent
  have hhigh := Number.hold_le (show (0 : ℤ) ≤ fullyOpen.toNat by decide) percent
  rw [Careful.byte_eq hlow (by omega)]
  rfl

/-- **No operation that the actuator comes to overflows**, whatever 32-bit word the travel is. -/
theorem slewCarefully_eq (hleast : -2147483648 ≤ travel) (hmost : travel ≤ 2147483647)
    (position command : UInt8) :
    slewCarefully position command travel = .ok (slew position command travel) := by
  have hposition := position.toNat_lt
  have hcommand := command.toNat_lt
  rw [slewCarefully, slew]
  dsimp only
  rw [Careful.int32_eq (by omega) (by omega), Careful.ok_bind]
  by_cases habove : (command.toNat : ℤ) - position.toNat > travel
  · rw [if_pos habove, if_pos habove, Careful.int32_eq (by omega) (by omega), Careful.ok_bind,
      byte_hold]
  · -- the travel is not below a gap between bytes, so that it has an opposite
    rw [if_neg habove, if_neg habove, Careful.int32_eq (by omega) (by omega), Careful.ok_bind]
    by_cases hbelow : (command.toNat : ℤ) - position.toNat < -travel
    · rw [if_pos hbelow, if_pos hbelow, Careful.int32_eq (by omega) (by omega), Careful.ok_bind,
        byte_hold]
    · rw [if_neg hbelow, if_neg hbelow]
      exact byte_hold _

/-- The valve ends up between where it was and its command. -/
theorem slew_between (hposition : position ≤ fullyOpen) (hcommand : command ≤ fullyOpen)
    (htravel : 0 ≤ travel) :
    (position ≤ slew position command travel ∧ slew position command travel ≤ command) ∨
      (command ≤ slew position command travel ∧ slew position command travel ≤ position) := by
  have hslew := toNat_slew hposition hcommand htravel
  simp only [UInt8.le_iff_toNat_le]
  omega

/-- **A valve that stands wider, and is to stand wider, ends up no narrower.** -/
theorem slew_mono (hwider : position ≤ wider) (hfarther : command ≤ farther)
    (hwidest : wider ≤ fullyOpen) (hfarthest : farther ≤ fullyOpen) (htravel : 0 ≤ travel) :
    slew position command travel ≤ slew wider farther travel := by
  have hslew :=
    toNat_slew (UInt8.le_trans hwider hwidest) (UInt8.le_trans hfarther hfarthest) htravel
  have hslew' := toNat_slew hwidest hfarthest htravel
  rw [UInt8.le_iff_toNat_le] at hwider hfarther ⊢
  omega

/-- **The actuator never overflows, and is an exact clamp.**  Whatever 32-bit word the travel is,
negative ones and the least and the largest one included, and whatever bytes position and command
are, no operation that is come to leaves its word, and the valve is at most fully open afterwards.
By a travel that is not negative, percentages are moved to the command, held within the travel
around the position: between the two, and the farther the larger either of them is. -/
theorem slew_without_overflow (hleast : -2147483648 ≤ travel) (hmost : travel ≤ 2147483647) :
    (∀ position command : UInt8,
      slewCarefully position command travel = .ok (slew position command travel) ∧
        slew position command travel ≤ 100) ∧
    (0 ≤ travel → ∀ position command : UInt8, position ≤ 100 → command ≤ 100 →
      ((slew position command travel).toNat : ℤ) =
          Number.hold (position.toNat - travel) (position.toNat + travel) command.toNat ∧
        ((position ≤ slew position command travel ∧
          slew position command travel ≤ command) ∨
          (command ≤ slew position command travel ∧
            slew position command travel ≤ position)) ∧
        ∀ wider farther : UInt8, position ≤ wider → wider ≤ 100 → command ≤ farther →
          farther ≤ 100 → slew position command travel ≤ slew wider farther travel) := by
  refine ⟨fun position command =>
    ⟨slewCarefully_eq hleast hmost position command, slew_le _ _ _⟩, ?_⟩
  intro htravel position command hposition hcommand
  refine ⟨toNat_slew hposition hcommand htravel, slew_between hposition hcommand htravel, ?_⟩
  intro wider farther hwider hwidest hfarther hfarthest
  exact slew_mono hwider hfarther hwidest hfarthest htravel

/-- The least and the largest travel that a cast gives, from the positions that they are farthest
from: the operations that would overflow are not come to.  And five percent toward a command fifty
percent away. -/
theorem slew_without_overflow_extremes :
    let least := Number.toInt32 (-1 / 0)
    let most := Number.toInt32 (1 / 0)
    (least = -2147483648 ∧ Careful.int32 (-least) = .error .overflow ∧
      slewCarefully 255 0 least = .ok (slew 255 0 least)) ∧
    (most = 2147483647 ∧ Careful.int32 (255 + most) = .error .overflow ∧
      slewCarefully 255 0 most = .ok (slew 255 0 most) ∧ slew 255 0 most ≤ 100) ∧
    ((40 : UInt8) ≤ 45 ∧ (90 : UInt8) ≤ 95 ∧
      ((slew 40 90 5).toNat : ℤ) = Number.hold (40 - 5) (40 + 5) 90 ∧
      slew 40 90 5 ≤ slew 45 95 5) := by
  intro least most
  have hleast : least = -2147483648 := by decide
  have hmost : most = 2147483647 := by decide
  have hlow := slew_without_overflow hleast.ge (hleast.trans_le (by decide))
  have hhigh := slew_without_overflow (hmost.ge.trans' (by decide)) hmost.le
  have hfive :=
    (slew_without_overflow (show (-2147483648 : ℤ) ≤ 5 by decide) (by decide)).2 (by decide)
    40 90 (by decide) (by decide)
  refine ⟨⟨hleast, ?_, (hlow.1 255 0).1⟩,
    ⟨hmost, ?_, (hhigh.1 255 0).1, (hhigh.1 255 0).2⟩, by decide, by decide, hfive.1,
    hfive.2.2 45 95 (by decide) (by decide) (by decide) (by decide)⟩
  · rw [hleast]
    decide
  · rw [hmost]
    decide

end HeatingPlant.Valve
