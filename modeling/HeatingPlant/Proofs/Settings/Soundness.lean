import HeatingPlant.Proofs.Floating.Arithmetic
import HeatingPlant.Settings.Check

/-!
# What valid settings promise

The checks look for defects one after the other.  Settings without a defect are those that have all
the properties below.

## Main definitions

* `Settings.Sound` — the properties of settings that the checks stand for

## Main statements

* `Settings.valid_iff_sound` — valid settings are the sound ones

## Design notes

A check that a quantity is at least zero is written as not being less than zero, which says the same
only because the quantity is finite; here it is said with the order itself.
-/

namespace HeatingPlant

open Floating

theorem isFiniteNonneg_iff {x : Float} :
    isFiniteNonneg x = true ↔ x.isFinite = true ∧ 0 ≤ x := by
  have hzero : (0 : Float).isNaN = false := by decide
  unfold isFiniteNonneg
  rw [Bool.and_eq_true, Bool.not_eq_true', decide_eq_false_iff_not]
  refine and_congr_right fun hfin => ⟨Floating.le_of_not_lt (isNaN_of_isFinite hfin) hzero, ?_⟩
  intro hle hlt
  exact absurd (lt_iff.mp hlt).2.2 (le_iff.mp hle).2.2.not_gt

theorem isFinitePositive_iff {x : Float} :
    isFinitePositive x = true ↔ x.isFinite = true ∧ 0 < x := by
  have hzero : (0 : Float).isNaN = false := by decide
  unfold isFinitePositive
  rw [Bool.and_eq_true, Bool.not_eq_true', decide_eq_false_iff_not]
  refine and_congr_right fun hfin => ⟨Floating.lt_of_not_le (isNaN_of_isFinite hfin) hzero, ?_⟩
  intro hlt hle
  exact absurd (lt_iff.mp hlt).2.2 (le_iff.mp hle).2.2.not_gt

theorem isBetween_iff {low high x : Float} :
    isBetween low high x = true ↔ low ≤ x ∧ x ≤ high := by
  simp [isBetween]

namespace Settings

/-- The properties of settings that the checks stand for. -/
structure Sound (settings : Settings) : Prop where
  /-- The service has a name. -/
  serviceName : settings.common.serviceName ≠ ""
  /-- A limit on clients lets at least one in. -/
  maxClients : settings.server.maxClients ≠ some 0
  /-- Time passes. -/
  tickInterval : settings.timing.tickInterval ≠ 0
  /-- Heat flows from warm to cold. -/
  lossFactor : settings.thermal.lossFactor.isFinite = true ∧ 0 ≤ settings.thermal.lossFactor
  /-- The supply heats. -/
  maxPower : settings.thermal.maxPower.isFinite = true ∧ 0 ≤ settings.thermal.maxPower
  /-- The building has a mass. -/
  thermalMass : settings.thermal.thermalMass.isFinite = true ∧ 0 < settings.thermal.thermalMass
  /-- The valve moves toward its command. -/
  slewRate : settings.thermal.slewRate.isFinite = true ∧ 0 ≤ settings.thermal.slewRate
  /-- It moves by at least one percent per tick. -/
  travel : ¬settings.thermal.slewRate * settings.timing.dt < 1
  /-- The proportional band is there. -/
  deadband : settings.controller.deadband.isFinite = true ∧ 0 < settings.controller.deadband
  /-- The setpoint is one that a client could have chosen. -/
  setpoint : 0 ≤ settings.startup.setpoint ∧ settings.startup.setpoint ≤ largestSetpoint
  /-- The valve is open by some percentage. -/
  valve : settings.startup.valve ≤ Valve.fullyOpen
  /-- The building starts in the range of the model. -/
  insideTemperature : Thermal.coldest ≤ settings.startup.insideTemperature ∧
    settings.startup.insideTemperature ≤ Thermal.warmest
  /-- The weather is finite. -/
  outsideTemperature : settings.startup.outsideTemperature.isFinite = true
  /-- So is the supply. -/
  supplyTemperature : settings.startup.supplyTemperature.isFinite = true

/-- **Settings without a defect are the sound ones.** -/
theorem valid_iff_sound {settings : Settings} : settings.Valid ↔ settings.Sound := by
  have hvalve : ∀ v : UInt8, ¬Valve.fullyOpen < v ↔ v ≤ Valve.fullyOpen :=
    fun v => UInt8.not_lt
  rw [valid_iff]
  simp only [checks, CommonSettings.checks, List.forall_mem_append, List.forall_mem_cons,
    List.not_mem_nil, false_implies, implies_true, Bool.not_eq_eq_eq_not, Bool.not_false,
    decide_eq_false_iff_not, Bool.and_eq_true, isFiniteNonneg_iff, isFinitePositive_iff,
    isBetween_iff, hvalve, and_true]
  constructor
  · rintro ⟨h1, h2, h3, h4, h5, h6, h7, h8, h9, h10, h11, h12, h13, h14⟩
    exact ⟨h1, h2, h3, h4, h5, h6, h7, h8, h9, h10, h11, h12, h13, h14⟩
  · rintro ⟨h1, h2, h3, h4, h5, h6, h7, h8, h9, h10, h11, h12, h13, h14⟩
    exact ⟨h1, h2, h3, h4, h5, h6, h7, h8, h9, h10, h11, h12, h13, h14⟩

theorem Valid.sound {settings : Settings} (h : settings.Valid) : settings.Sound :=
  valid_iff_sound.mp h

end Settings

end HeatingPlant
