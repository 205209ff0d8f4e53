import HeatingPlant.Proofs.Decimal.Digits
import HeatingPlant.Toml.Scalar
import HeatingPlant.Toml.Writer
import Mathlib.Data.List.TakeWhile

/-!
# Bare values read back

Booleans and numbers, once written, are read as what they were.

## Main definitions

* `digitText` — digits as characters
* `Pointed` — digits around a point
* `Number.pointed`, `Scalar.asRead` — a decimal, and any scalar, as its text gives it away
* `Scalar.Writable`, `Scalar.IsBare` — what a text can give away, and what does without quotes

## Main statements

* `readScalar?_signed` — what looks like a number can only be read as one
* `readScalar?_integerText` — whole numbers
* `readScalar?_pointed`, `readScalar?_decimal` — decimals
* `readScalar?_valueText` — all that stands without quotes
* `isBareChar_valueText` — and which characters it is made of

## Design notes

The sign and the digits that are written have no character in common with a date, with a number in
another base or with a word, so that these are excluded once for all that looks like a number.
-/

namespace HeatingPlant.Toml

open Decimal

/-! ### Digits -/

/-- Digits as characters. -/
def digitText (digits : List ℕ) : List Char := digits.map Nat.digitChar

@[simp] theorem digitText_append (digits more : List ℕ) :
    digitText (digits ++ more) = digitText digits ++ digitText more := List.map_append

@[simp] theorem length_digitText (digits : List ℕ) : (digitText digits).length = digits.length :=
  List.length_map _

theorem isDigitIn_digitChar {digit : ℕ} (h : digit < 10) :
    isDigitIn 10 (Nat.digitChar digit) = true := by
  simp [isDigitIn, Hex.value?_digitChar (show digit < 16 by omega), h]

theorem isDigitIn_of_mem {digits : List ℕ} (hlt : ∀ digit ∈ digits, digit < 10) :
    ∀ c ∈ digitText digits, isDigitIn 10 c = true := by
  intro c hmem
  obtain ⟨digit, hdigit, rfl⟩ := List.mem_map.mp hmem
  exact isDigitIn_digitChar (hlt digit hdigit)

/-- Digits are read as the number that they stand for. -/
theorem digits?_digitText {digits : List ℕ} (hne : digits ≠ [])
    (hlt : ∀ digit ∈ digits, digit < 10) :
    digits? 10 (digitText digits) = some (valueOf 10 digits) := by
  have hall : (digitText digits).all (isDigitIn 10) = true :=
    List.all_eq_true.mpr (isDigitIn_of_mem hlt)
  have hvalue : digitsValue 10 (digitText digits) = valueOf 10 digits := by
    rw [digitsValue, digitText, List.foldl_map, valueOf]
    refine List.foldl_ext _ _ _ ?_
    intro value digit hmem
    have := hlt digit hmem
    rw [Hex.value?_digitChar (by omega), Option.getD_some]
  rw [digits?, if_pos ⟨by simpa [digitText] using hne, hall⟩, hvalue]

/-! ### What is no date and no time -/

theorem mem_of_isTime {text : List Char} (h : isTime text = true) : ':' ∈ text := by
  have hstart := (Bool.and_eq_true_iff.mp h).1
  unfold isHourMinute at hstart
  split at hstart
  case h_1 h1 h2 m1 m2 heq =>
    refine List.mem_of_mem_take (i := 5) ?_
    rw [heq]
    simp
  case h_2 => cases hstart

theorem mem_of_isDate {text : List Char} (h : isDate text = true) : '-' ∈ text.drop 1 := by
  unfold isDate at h
  split at h
  case h_1 => simp
  case h_2 => cases h

/-- A text without a colon, and without a hyphen but at its start, is no date and no time. -/
theorem isDatetime_eq_false {text : List Char} (hcolon : ':' ∉ text)
    (hhyphen : '-' ∉ text.drop 1) :
    isDatetime text = false := by
  have hdate : isDate (text.take 10) = false := by
    by_contra h
    have hmem := mem_of_isDate (by simpa using h)
    rw [List.drop_take] at hmem
    exact hhyphen (List.mem_of_mem_take hmem)
  unfold isDatetime
  rw [Bool.or_eq_false_iff, Bool.or_eq_false_iff]
  refine ⟨⟨?_, ?_⟩, ?_⟩
  · exact eq_false_of_ne_true fun h => hcolon (mem_of_isTime h)
  · exact eq_false_of_ne_true fun h => hhyphen (mem_of_isDate h)
  · split <;> simp [hdate]

/-! ### Numbers -/

/-- Whether a character stands in a number after its sign. -/
def isNumeral (c : Char) : Bool := c.isDigit || c = '.'

theorem isNumeral_digitChar {digit : ℕ} (h : digit < 10) :
    isNumeral (Nat.digitChar digit) = true := by
  have hall : ∀ digit : Fin 10, isNumeral (Nat.digitChar digit) = true := by decide
  exact hall ⟨digit, h⟩

theorem isNumeral_of_mem {digits : List ℕ} (hlt : ∀ digit ∈ digits, digit < 10) :
    ∀ c ∈ digitText digits, isNumeral c = true := by
  intro c hmem
  obtain ⟨digit, hdigit, rfl⟩ := List.mem_map.mp hmem
  exact isNumeral_digitChar (hlt digit hdigit)

/-- Where no underscore stands, none is out of place. -/
theorem underscoresFit_of_not_mem {isDigit : Char → Bool} {text : List Char} (h : '_' ∉ text) :
    underscoresFit isDigit text = true := by
  have hafter : ∀ text : List Char, '_' ∉ text → ∀ afterDigit,
      underscoresFitAfter isDigit afterDigit text = true := by
    intro text
    induction text with
    | nil => intro _ _; rfl
    | cons c rest ih =>
        intro h afterDigit
        rw [List.mem_cons, not_or] at h
        rw [underscoresFitAfter, if_neg (Ne.symm h.1)]
        exact ih h.2 _
  exact hafter text h false

theorem withoutUnderscores_of_not_mem {text : List Char} (h : '_' ∉ text) :
    withoutUnderscores text = text := by
  rw [withoutUnderscores, List.filter_eq_self]
  intro c hmem
  exact decide_eq_true fun heq => h (heq ▸ hmem)

section Signed

variable {body : List Char} (negative : Bool) (hbody : ∀ c ∈ body, isNumeral c = true)

include hbody

theorem not_mem_signed {c : Char} (hc : isNumeral c = false) (hsign : c ≠ '-') :
    c ∉ signText negative ++ body := by
  intro hmem
  rcases List.mem_append.mp hmem with h | h
  · cases negative
    · cases h
    · exact hsign (List.mem_singleton.mp h)
  · rw [hbody c h] at hc
    cases hc

theorem underscoresFit_signed (isDigit : Char → Bool) :
    underscoresFit isDigit (signText negative ++ body) = true :=
  underscoresFit_of_not_mem (not_mem_signed negative hbody rfl (by decide))

theorem withoutUnderscores_signed :
    withoutUnderscores (signText negative ++ body) = signText negative ++ body :=
  withoutUnderscores_of_not_mem (not_mem_signed negative hbody rfl (by decide))

theorem splitSign_signed : splitSign (signText negative ++ body) = (negative, body) := by
  cases negative with
  | true => rfl
  | false =>
      show splitSign body = (false, body)
      cases body with
      | nil => rfl
      | cons c rest =>
          have hc := hbody c List.mem_cons_self
          unfold splitSign
          split
          case h_1 heq => cases heq; cases hc
          case h_2 heq => cases heq; cases hc
          case h_3 => rfl

theorem isDatetime_signed : isDatetime (signText negative ++ body) = false := by
  refine isDatetime_eq_false (not_mem_signed negative hbody rfl (by decide)) ?_
  intro hmem
  have hmem' : '-' ∈ body := by
    cases negative with
    | true => exact hmem
    | false => exact List.mem_of_mem_drop hmem
  cases hbody '-' hmem'

theorem readIntegral?_signed :
    readIntegral? (signText negative ++ body) = readDecimal? (signText negative ++ body) := by
  have hradix : ∀ {c : Char} {rest : List Char}, signText negative ++ body = '0' :: c :: rest →
      isNumeral c = false → c ≠ '-' → False := fun heq hc hsign =>
    not_mem_signed negative hbody hc hsign (heq ▸ by simp)
  unfold readIntegral?
  split
  case h_1 heq => exact (hradix heq rfl (by decide)).elim
  case h_2 heq => exact (hradix heq rfl (by decide)).elim
  case h_3 heq => exact (hradix heq rfl (by decide)).elim
  case h_4 => rfl

/-- What looks like a number is read as a number or not at all. -/
theorem readScalar?_signed :
    readScalar? (signText negative ++ body) =
      ((readDecimal? (signText negative ++ body)).map (.ofIntegral (signText negative ++ body)) <|>
        (readReal? (signText negative ++ body)).map .real) := by
  have hword : ∀ {c : Char} {word : List Char}, c ∈ word →
    isNumeral c = false → c ≠ '-' →
      signText negative ++ body ≠ word := fun hmem hc hsign heq =>
    not_mem_signed negative hbody hc hsign (heq ▸ hmem)
  unfold readScalar?
  rw [if_neg (hword (c := 't') (by decide) rfl (by decide)),
    if_neg (hword (c := 'f') (by decide) rfl (by decide)), isDatetime_signed negative hbody,
    readIntegral?_signed negative hbody]
  rfl

end Signed

/-- Digits as a number is written with them have no leading zero. -/
theorem hasLeadingZero_digitText {digits : List ℕ} (h : digits.head? = some 0 → digits = [0]) :
    hasLeadingZero (digitText digits) = false := by
  cases digits with
  | nil => rfl
  | cons digit rest =>
      by_cases hzero : digit = 0
      · rw [h (by rw [hzero]; rfl)]
        rfl
      · have hchar : Nat.digitChar digit ≠ '0' := fun heq => hzero (Nat.digitChar_eq_zero.mp heq)
        simp [hasLeadingZero, digitText, hchar]

/-- A whole number is written as its sign and the digits of its magnitude. -/
theorem exists_integerText (value : ℤ) :
    ∃ digits, integerText value = signText (value < 0) ++ digitText digits ∧
      Spells 10 digits value.natAbs := by
  obtain ⟨digits, htext, hspells⟩ := @exists_spells 10 (by norm_num) value.natAbs
  exact ⟨digits, congrArg (signText (value < 0) ++ ·) htext, hspells⟩

/-- **A whole number reads back.** -/
theorem readScalar?_integerText (value : ℤ) :
    readScalar? (integerText value) = some (.integer value) := by
  obtain ⟨digits, hinteger, hspells⟩ := exists_integerText value
  have hbody := isNumeral_of_mem hspells.lt_base
  have hall : (digitText digits).dropWhile (isDigitIn 10) = [] :=
    List.dropWhile_eq_nil_iff.mpr (isDigitIn_of_mem hspells.lt_base)
  have hne : digitText digits ≠ [] := by simpa [digitText] using hspells.ne_nil
  have houtline : hasOutline (digitText digits) = true := by
    simp [hasOutline, hall, hasLeadingZero_digitText hspells.leading, hne]
  have hvalue :
      (if decide (value < 0) = true then -(value.natAbs : ℤ) else value.natAbs) = value := by
    split_ifs with h <;> simp only [decide_eq_true_eq] at h <;> omega
  have hdecimal : readDecimal? (signText (value < 0) ++ digitText digits) = some (some value) := by
    rw [readDecimal?, splitSign_signed _ hbody,
      if_pos ⟨houtline, underscoresFit_signed _ hbody _⟩,
      withoutUnderscores_signed _ hbody, signedDigits?, splitSign_signed _ hbody]
    simp only [digits?_digitText hspells.ne_nil hspells.lt_base, hspells.value_eq, Option.map_some,
      hvalue]
  rw [hinteger, readScalar?_signed _ hbody, hdecimal]
  rfl

theorem cut_of_forall {stop : Char → Bool} {text : List Char}
    (h : ∀ c ∈ text, stop c = false) :
    cut stop text = (text, none) := by
  have hdrop : text.dropWhile (!stop ·) = [] := by
    rw [List.dropWhile_eq_nil_iff]
    intro c hmem
    rw [h c hmem]
    rfl
  rw [cut, hdrop]

theorem cut_append_cons {stop : Char → Bool} {front rest : List Char} {c : Char}
    (h : ∀ c ∈ front, stop c = false) (hc : stop c = true) :
    cut stop (front ++ c :: rest) = (front, some rest) := by
  have hfront : ∀ c ∈ front, (!stop c) = true := fun c hmem => by rw [h c hmem]; rfl
  have hdrop : (front ++ c :: rest).dropWhile (!stop ·) = c :: rest := by
    rw [List.dropWhile_append_of_pos hfront, List.dropWhile_cons, hc]
    rfl
  have htake : (front ++ c :: rest).takeWhile (!stop ·) = front := by
    rw [List.takeWhile_append_of_pos hfront, List.takeWhile_cons, hc]
    exact List.append_nil front
  rw [cut, hdrop, htake]

/-! ### Decimals -/

/-- Digits around a point: one at least on each side, and before it no zero that another follows. -/
structure Pointed (whole fraction : List ℕ) : Prop where
  /-- There are digits before the point. -/
  whole_ne_nil : whole ≠ []
  /-- There are digits after it. -/
  fraction_ne_nil : fraction ≠ []
  /-- Each is a digit. -/
  lt_ten : ∀ digit ∈ whole ++ fraction, digit < 10
  /-- A leading zero is alone. -/
  leading : whole.head? = some 0 → whole = [0]

namespace Pointed

variable {whole fraction : List ℕ}

theorem whole_lt (h : Pointed whole fraction) : ∀ digit ∈ whole, digit < 10 := fun digit hmem =>
  h.lt_ten digit (List.mem_append_left _ hmem)

theorem fraction_lt (h : Pointed whole fraction) : ∀ digit ∈ fraction, digit < 10 :=
  fun digit hmem => h.lt_ten digit (List.mem_append_right _ hmem)

end Pointed

section Pointed

variable {whole fraction : List ℕ} (negative : Bool) (h : Pointed whole fraction)

include h

theorem isNumeral_pointed :
    ∀ c ∈ digitText whole ++ '.' :: digitText fraction, isNumeral c = true := by
  intro c hmem
  rcases List.mem_append.mp hmem with hmem | hmem
  · exact isNumeral_of_mem h.whole_lt c hmem
  · rcases List.mem_cons.mp hmem with rfl | hmem
    · rfl
    · exact isNumeral_of_mem h.fraction_lt c hmem

/-- A point ends the digits, so that this is no whole number. -/
theorem readDecimal?_pointed :
    readDecimal? (signText negative ++ (digitText whole ++ '.' :: digitText fraction)) = none := by
  have hrest : (digitText whole ++ '.' :: digitText fraction).dropWhile (isDigitIn 10) =
      '.' :: digitText fraction := by
    rw [List.dropWhile_append_of_pos (isDigitIn_of_mem h.whole_lt)]
    rfl
  have houtline : hasOutline (digitText whole ++ '.' :: digitText fraction) = false := by
    simp [hasOutline, hrest]
  rw [readDecimal?, splitSign_signed _ (isNumeral_pointed h), houtline]
  simp

theorem readMagnitude?_pointed :
    readMagnitude? negative (digitText whole ++ '.' :: digitText fraction) =
      some (.decimal negative (valueOf 10 (whole ++ fraction)) (-fraction.length)) := by
  have hnumeral := isNumeral_pointed h
  have hword : ∀ {c : Char} {word : List Char}, c ∈ word → isNumeral c = false →
      digitText whole ++ '.' :: digitText fraction ≠ word := by
    intro c word hmem hc heq
    rw [hnumeral c (heq ▸ hmem)] at hc
    cases hc
  have hexponent : ∀ c ∈ digitText whole ++ '.' :: digitText fraction,
      (decide (c = 'e') || decide (c = 'E')) = false := by
    intro c hmem
    have hc := hnumeral c hmem
    rw [Bool.or_eq_false_iff]
    constructor <;> refine decide_eq_false fun heq => ?_ <;> rw [heq] at hc <;> cases hc
  have hpoint : ∀ c ∈ digitText whole, decide (c = '.') = false := by
    intro c hmem
    obtain ⟨digit, hdigit, rfl⟩ := List.mem_map.mp hmem
    have hall : ∀ digit : Fin 10, decide (Nat.digitChar digit = '.') = false := by decide
    exact hall ⟨digit, h.whole_lt digit hdigit⟩
  rw [readMagnitude?, if_neg (hword (c := 'i') (by decide) rfl),
    if_neg (hword (c := 'n') (by decide) rfl), cut_of_forall hexponent]
  simp only [cut_append_cons hpoint (decide_eq_true rfl), hasLeadingZero_digitText h.leading,
    digits?_digitText h.whole_ne_nil h.whole_lt, readFraction?,
    digits?_digitText h.fraction_ne_nil h.fraction_lt, readExponent?]
  simp [valueOf_append]

/-- **Digits with a point between them read back.** -/
theorem readScalar?_pointed :
    readScalar? (signText negative ++ (digitText whole ++ '.' :: digitText fraction)) =
      some (.real (.decimal negative (valueOf 10 (whole ++ fraction)) (-fraction.length))) := by
  have hbody := isNumeral_pointed h
  have hplain : withoutUnderscores (digitText whole ++ '.' :: digitText fraction) =
      digitText whole ++ '.' :: digitText fraction := withoutUnderscores_signed false hbody
  rw [readScalar?_signed _ hbody, readDecimal?_pointed _ h, readReal?,
    if_pos (underscoresFit_signed _ hbody _), splitSign_signed _ hbody]
  dsimp only
  rw [hplain, readMagnitude?_pointed _ h]
  rfl

end Pointed

theorem digitText_replicate_zero (count : ℕ) :
    digitText (List.replicate count 0) = List.replicate count '0' := List.map_replicate

/-- A number with zeros after it, a point and one more zero. -/
theorem exists_pointed_of_nonneg {n : ℕ} {digits : List ℕ}
    (h : Spells 10 digits n) (zeros : ℕ) (hzero : n ≠ 0 ∨ zeros = 0) :
    ∃ whole fraction, digitText digits ++ List.replicate zeros '0' ++ ['.', '0'] =
        digitText whole ++ '.' :: digitText fraction ∧ Pointed whole fraction ∧
      valueOf 10 (whole ++ fraction) = n * 10 ^ (zeros + 1) ∧ fraction.length = 1 := by
  refine ⟨digits ++ List.replicate zeros 0, [0], ?_, ⟨?_, by simp, ?_, ?_⟩, ?_, rfl⟩
  · rw [digitText_append, digitText_replicate_zero]
    rfl
  · simp [h.ne_nil]
  · intro digit hmem
    simp only [List.mem_append, List.mem_replicate, List.mem_singleton] at hmem
    rcases hmem with (hmem | hmem) | hmem
    · exact h.lt_base digit hmem
    · omega
    · omega
  · intro hhead
    rw [List.head?_append_of_ne_nil _ h.ne_nil] at hhead
    have hn : n = 0 := by
      by_contra hn
      exact h.head_ne_zero hn hhead
    rw [h.leading hhead, hzero.resolve_left (not_not.mpr hn)]
    rfl
  · rw [valueOf_append, valueOf_append, valueOf_replicate_zero, h.value_eq]
    simp [pow_succ, mul_assoc]

/-- A number with zeros before it, and a point in front of its last `places` digits. -/
theorem exists_pointed_of_neg {n places : ℕ} {digits : List ℕ} (h : Spells 10 digits n)
    (hplaces : 0 < places) :
    ∃ whole fraction,
      pointed (digitText digits) places = digitText whole ++ '.' :: digitText fraction ∧
      Pointed whole fraction ∧ valueOf 10 (whole ++ fraction) = n ∧
      fraction.length = places := by
  obtain ⟨padded, hpadded⟩ :
      ∃ padded, padded = List.replicate (places + 1 - digits.length) 0 ++ digits := ⟨_, rfl⟩
  have hlength : padded.length = max (places + 1) digits.length := by
    rw [hpadded, List.length_append, List.length_replicate]
    omega
  have hlead : padded.length - places ≠ 0 := by omega
  refine ⟨padded.take (padded.length - places), padded.drop (padded.length - places), ?_,
    ⟨?_, ?_, ?_, ?_⟩, ?_, ?_⟩
  · have htext : List.replicate (places + 1 - (digitText digits).length) '0' ++ digitText digits =
        digitText padded := by
      rw [hpadded, digitText_append, digitText_replicate_zero, length_digitText]
    rw [pointed, htext, length_digitText]
    simp only [digitText, List.map_take, List.map_drop]
  · rw [ne_eq, List.take_eq_nil_iff, not_or]
    refine ⟨hlead, fun hnil => ?_⟩
    rw [hnil, List.length_nil] at hlength
    omega
  · rw [ne_eq, List.drop_eq_nil_iff]
    omega
  · rw [List.take_append_drop, hpadded]
    intro digit hmem
    rcases List.mem_append.mp hmem with hmem | hmem
    · rw [(List.mem_replicate.mp hmem).2]
      norm_num
    · exact h.lt_base digit hmem
  · intro hhead
    rw [List.head?_take, if_neg hlead] at hhead
    rcases Nat.lt_or_ge places digits.length with hlong | hshort
    · -- without padding the leading digit is that of the number, which has others
      have hnone : places + 1 - digits.length = 0 := by omega
      rw [hpadded, hnone, List.replicate_zero, List.nil_append] at hhead
      have hone := congrArg List.length (h.leading hhead)
      rw [List.length_singleton] at hone
      omega
    · have hone : padded.length - places = 1 := by omega
      rw [hone, List.take_one, hhead]
      rfl
  · rw [List.take_append_drop, hpadded, valueOf_append, valueOf_replicate_zero,
      h.value_eq, zero_mul, zero_add]
  · rw [List.length_drop]
    omega

/-- A decimal as its text gives it away, with at least one digit after the point. -/
def Number.pointed : Number → Number
  | .decimal negative digits exponent =>
    if 0 ≤ exponent then .decimal negative (digits * 10 ^ (exponent.toNat + 1)) (-1)
    else .decimal negative digits exponent
  | number => number

/-- A decimal is written as digits around a point, which give the same number away. -/
theorem exists_numberText (negative : Bool) {digits : ℕ} {exponent : ℤ}
    (h : digits ≠ 0 ∨ exponent ≤ 0) :
    ∃ whole fraction, Pointed whole fraction ∧
      numberText (.decimal negative digits exponent) =
        signText negative ++ (digitText whole ++ '.' :: digitText fraction) ∧
      (Number.decimal negative digits exponent).pointed =
        .decimal negative (valueOf 10 (whole ++ fraction)) (-fraction.length) := by
  obtain ⟨ds, htext, hspells⟩ := @exists_spells 10 (by norm_num) digits
  have hdigits : Nat.toDigits 10 digits = digitText ds := htext
  rw [numberText, decimalText, Number.pointed, Decimal.positional]
  dsimp only
  rw [hdigits]
  rcases lt_or_ge exponent 0 with hneg | hpos
  · obtain ⟨whole, fraction, htext, hpointed, hvalue, hlength⟩ :=
      @exists_pointed_of_neg digits (-exponent).toNat ds hspells (by omega)
    have hplaces : -(((-exponent).toNat : ℕ) : ℤ) = exponent := by omega
    refine ⟨whole, fraction, hpointed, ?_, ?_⟩
    · rw [if_neg hneg.not_ge, if_neg hneg.not_ge, htext]
    · rw [if_neg hneg.not_ge, hvalue, hlength, hplaces]
  · obtain ⟨whole, fraction, htext, hpointed, hvalue, hlength⟩ :=
      exists_pointed_of_nonneg hspells exponent.toNat (h.imp_right (by omega))
    refine ⟨whole, fraction, hpointed, ?_, ?_⟩
    · rw [if_pos hpos, if_pos hpos, htext]
    · rw [if_pos hpos, hvalue, hlength]
      rfl

/-- **A decimal reads back**, unless it is a zero with a positive power of ten. -/
theorem readScalar?_decimal (negative : Bool) {digits : ℕ} {exponent : ℤ}
    (h : digits ≠ 0 ∨ exponent ≤ 0) :
    readScalar? (numberText (.decimal negative digits exponent)) =
      some (.real (Number.decimal negative digits exponent).pointed) := by
  obtain ⟨whole, fraction, hpointed, htext, hnumber⟩ := exists_numberText negative h
  rw [htext, hnumber, readScalar?_pointed _ hpointed]

/-! ### All of them -/

namespace Scalar

/-- A scalar as its text gives it away. -/
def asRead : Scalar → Scalar
  | real value => real value.pointed
  | scalar => scalar

/-- Whether a scalar is one that a text can give away: no date, nothing illegible, and no zero
with a power of ten. -/
def Writable : Scalar → Prop
  | real (.decimal _ digits exponent) => digits ≠ 0 ∨ exponent ≤ 0
  | datetime _ | illegible _ => False
  | _ => True

instance : DecidablePred Writable
  | real (.decimal _ digits exponent) =>
    inferInstanceAs (Decidable (digits ≠ 0 ∨ exponent ≤ 0))
  | datetime _ | illegible _ => .isFalse id
  | string _ | integer _ | boolean _ | real (.infinite _) | real .notANumber => .isTrue trivial

/-- Whether a scalar stands in a document without quotes. -/
def IsBare : Scalar → Prop
  | string _ => False
  | _ => True

end Scalar

/-- **Booleans and numbers read back.** -/
theorem readScalar?_valueText {scalar : Scalar} (h : scalar.Writable) (hbare : scalar.IsBare) :
    readScalar? (valueText scalar) = some scalar.asRead := by
  cases scalar with
  | string text => exact hbare.elim
  | integer value => exact readScalar?_integerText value
  | real value =>
      cases value with
      | decimal negative digits exponent => exact readScalar?_decimal negative h
      | infinite negative => cases negative <;> decide
      | notANumber => decide
  | boolean value => cases value <;> decide
  | datetime text => exact h.elim
  | illegible text => exact h.elim

/-- Whether a character occurs in booleans and numbers. -/
def isBareChar (c : Char) : Bool := c.isAlphanum || c = '-' || c = '.'

theorem isBareChar_of_isNumeral {c : Char} (h : isNumeral c = true) : isBareChar c = true := by
  unfold isNumeral at h
  unfold isBareChar Char.isAlphanum
  rcases Bool.or_eq_true_iff.mp h with h | h <;> simp [h]

theorem isBareChar_signed {body : List Char} (negative : Bool)
    (hbody : ∀ c ∈ body, isNumeral c = true) :
    ∀ c ∈ signText negative ++ body, isBareChar c = true := by
  intro c hmem
  rcases List.mem_append.mp hmem with h | h
  · cases negative
    · cases h
    · rw [List.mem_singleton.mp h]
      rfl
  · exact isBareChar_of_isNumeral (hbody c h)

/-- A boolean or a number is a text of such characters, and not empty. -/
theorem isBareChar_valueText {scalar : Scalar} (h : scalar.Writable) (hbare : scalar.IsBare) :
    valueText scalar ≠ [] ∧ ∀ c ∈ valueText scalar, isBareChar c = true := by
  cases scalar with
  | string text => exact hbare.elim
  | integer value =>
      obtain ⟨digits, hinteger, hspells⟩ := exists_integerText value
      rw [valueText, hinteger]
      refine ⟨?_, isBareChar_signed _ (isNumeral_of_mem hspells.lt_base)⟩
      simp [digitText, hspells.ne_nil]
  | real value =>
      cases value with
      | decimal negative digits exponent =>
          obtain ⟨whole, fraction, hpointed, htext, -⟩ := exists_numberText negative h
          rw [valueText, htext]
          exact ⟨by simp, isBareChar_signed _ (isNumeral_pointed hpointed)⟩
      | infinite negative =>
          cases negative <;> exact ⟨by decide, List.all_eq_true.mp (by decide)⟩
      | notANumber => exact ⟨by decide, List.all_eq_true.mp (by decide)⟩
  | boolean value => cases value <;> exact ⟨by decide, List.all_eq_true.mp (by decide)⟩
  | datetime text => exact h.elim
  | illegible text => exact h.elim

end HeatingPlant.Toml
