import HeatingPlant.Number.Hex
import Mathlib.Data.List.Basic
import Mathlib.Data.List.Induction
import Mathlib.Tactic.Ring

/-!
# The digits of a number

What a written number looks like to those who read it: its digits, the leading one first.

## Main definitions

* `valueOf` — the number that digits stand for
* `Spells` — digits as a number is written with them

## Main statements

* `exists_spells` — every number is written so
* `length_le_of_lt` — and how many digits that takes at most
* `Hex.value?_digitChar` — which characters they are

## Design notes

Readers of documents and of addresses look at characters each in its own way, but add digits up
alike.  So the digits are kept as numbers here, and their characters come in only by
`Nat.digitChar`.
-/

namespace HeatingPlant.Decimal

/-- The number that digits stand for, the leading one first. -/
def valueOf (base : ℕ) (digits : List ℕ) : ℕ :=
  digits.foldl (fun value digit => value * base + digit) 0

@[simp] theorem valueOf_nil (base : ℕ) : valueOf base [] = 0 := rfl

@[simp] theorem valueOf_singleton (base digit : ℕ) : valueOf base [digit] = digit := by
  simp [valueOf]

theorem valueOf_append (base : ℕ) (digits more : List ℕ) :
    valueOf base (digits ++ more) =
      valueOf base digits * base ^ more.length + valueOf base more := by
  induction more using List.reverseRecOn with
  | nil => simp
  | append_singleton more digit ih =>
      have hstep : ∀ front : List ℕ,
          valueOf base (front ++ [digit]) = valueOf base front * base + digit :=
        fun front => by simp [valueOf, List.foldl_append]
      rw [← List.append_assoc, hstep, hstep, ih, List.length_append,
        List.length_singleton, pow_succ]
      ring

@[simp] theorem valueOf_replicate_zero (base count : ℕ) :
    valueOf base (List.replicate count 0) = 0 := by
  induction count with
  | zero => rfl
  | succ count ih => rw [List.replicate_succ', valueOf_append, ih]; simp

/-- Digits as a number is written with them: the leading one is no zero, unless it is alone. -/
structure Spells (base : ℕ) (digits : List ℕ) (n : ℕ) : Prop where
  /-- There is one at least. -/
  ne_nil : digits ≠ []
  /-- Each is a digit. -/
  lt_base : ∀ digit ∈ digits, digit < base
  /-- Together they are the number. -/
  value_eq : valueOf base digits = n
  /-- A leading zero is alone. -/
  leading : digits.head? = some 0 → digits = [0]

variable {base n : ℕ} {digits : List ℕ}

/-- Only zero is written with a leading zero. -/
theorem Spells.head_ne_zero (h : Spells base digits n) (hn : n ≠ 0) :
    digits.head? ≠ some 0 := by
  intro hhead
  have hvalue := h.value_eq
  rw [h.leading hhead, valueOf_singleton] at hvalue
  exact hn hvalue.symm

/-- **Every number is written with digits.** -/
theorem exists_spells (hbase : 1 < base) (n : ℕ) :
    ∃ digits, Nat.toDigits base n = digits.map Nat.digitChar ∧ Spells base digits n := by
  induction n using Nat.strong_induction_on with
  | _ n ih =>
      rcases Nat.lt_or_ge n base with hlt | hge
      · refine ⟨[n], Nat.toDigits_of_lt_base hlt, by simp, by simpa using hlt, by simp, ?_⟩
        intro hhead
        simpa using hhead
      · -- all digits but the last are those of the quotient, which is not zero
        have hpos : n / base ≠ 0 := (Nat.div_pos hge (by omega)).ne'
        obtain ⟨front, htext, hfront⟩ := ih (n / base) (Nat.div_lt_self (by omega) hbase)
        refine ⟨front ++ [n % base], ?_, by simp, ?_, ?_, ?_⟩
        · rw [Nat.toDigits_of_base_le hbase hge, htext, List.map_append, List.map_singleton]
        · intro digit hmem
          rcases List.mem_append.mp hmem with h | h
          · exact hfront.lt_base digit h
          · rw [List.mem_singleton.mp h]
            exact Nat.mod_lt n (by omega)
        · rw [valueOf_append, hfront.value_eq, valueOf_singleton, List.length_singleton, pow_one]
          exact Nat.div_add_mod' n base
        · rw [List.head?_append_of_ne_nil front hfront.ne_nil]
          intro hhead
          exact absurd hhead (hfront.head_ne_zero hpos)

/-- Up to `count` digits spell what is below that power of the base. -/
theorem length_le_of_lt {count : ℕ} (hbase : 1 < base) (hcount : 0 < count)
    (htext : Nat.toDigits base n = digits.map Nat.digitChar) (hn : n < base ^ count) :
    digits.length ≤ count := by
  have h := (Nat.length_toDigits_le_iff hbase hcount).mpr hn
  rwa [htext, List.length_map] at h

end HeatingPlant.Decimal

namespace HeatingPlant.Hex

/-- The value of a digit is read off its character. -/
theorem value?_digitChar {digit : ℕ} (h : digit < 16) :
    value? (Nat.digitChar digit) = some digit := by
  have hall : ∀ digit : Fin 16, value? (Nat.digitChar digit) = some digit.val := by decide
  exact hall ⟨digit, h⟩

end HeatingPlant.Hex
