import HeatingPlant.Proofs.Floating.Operations

/-!
# Arithmetic on floats

Floats read as extended reals: comparing them compares those, and an operation on finite floats
answers with the number nearest to the exact result.

## Main definitions

* `extended`, `real` — the extended real that a float denotes, and the real if it is finite
* `Rounds` — a float is the one nearest to a real number

## Main statements

* `le_iff`, `lt_iff`, `beq_iff` — the order of floats, and when they compare as equal
* `rounds_add`, `rounds_sub`, `rounds_mul`, `rounds_div` — operations on finite floats
* `isNaN_sub_iff` — the one way in which a difference is not a number

## Design notes

What is not a number has no place in the order, so each comparison says that both of its sides are
numbers.  The statements here are the only ones about floats that the rest of the library uses.
-/

open Float.Model Float.Model.UnpackedFloat

namespace HeatingPlant.Floating

noncomputable section

variable {x y z : Float} {r : ℝ}

/-- The extended real that a float denotes; zero stands for what is not a number. -/
def extended (x : Float) : EReal := value x.toModel.unpack

/-- The real number that a finite float denotes. -/
def real (x : Float) : ℝ := exact x.toModel.unpack

theorem settled_toModel (x : Float) : Settled x.toModel.unpack := settled_unpack _

theorem extended_eq_real (h : x.isFinite = true) : extended x = real x := value_eq_exact h

theorem isNaN_of_isFinite (h : x.isFinite = true) : x.isNaN = false := by
  have h' : x.toModel.unpack.isFinite = true := h
  show x.toModel.unpack.isNaN = false
  cases hu : x.toModel.unpack <;> rw [hu] at h' <;> first | rfl | cases h'

/-- A finite float is a number between the infinities. -/
theorem isFinite_iff :
    x.isFinite = true ↔ x.isNaN = false ∧ ⊥ < extended x ∧ extended x < ⊤ := by
  constructor
  · intro h
    rw [extended_eq_real h]
    exact ⟨isNaN_of_isFinite h, EReal.bot_lt_coe _, EReal.coe_lt_top _⟩
  · rintro ⟨hnan, hbot, htop⟩
    change x.toModel.unpack.isNaN = false at hnan
    show x.toModel.unpack.isFinite = true
    unfold extended at hbot htop
    cases hu : x.toModel.unpack with
    | notANumber => rw [hu] at hnan; cases hnan
    | infinity sign => cases sign <;> simp [hu, value] at hbot htop
    | _ => rfl

/-! ### Order -/

/-- **One float is at most another if both are numbers and so ordered.** -/
theorem le_iff : x ≤ y ↔ x.isNaN = false ∧ y.isNaN = false ∧ extended x ≤ extended y := by
  have hle : x ≤ y ↔ x.toModel.unpack.le y.toModel.unpack = true := decide_eq_true_iff
  rw [hle]
  show _ ↔ x.toModel.unpack.isNaN = false ∧ y.toModel.unpack.isNaN = false ∧ _
  by_cases hx : x.toModel.unpack.isNaN = false
  · by_cases hy : y.toModel.unpack.isNaN = false
    · rw [le_eq (settled_toModel x).tidy (settled_toModel y).tidy hx hy]
      exact ⟨fun h => ⟨hx, hy, h⟩, fun h => h.2.2⟩
    · rw [UnpackedFloat.le, compare_of_isNaN (Or.inr (by simpa using hy))]
      simp [hy]
  · rw [UnpackedFloat.le, compare_of_isNaN (Or.inl (by simpa using hx))]
    simp [hx]

/-- The same holds of the strict order. -/
theorem lt_iff : x < y ↔ x.isNaN = false ∧ y.isNaN = false ∧ extended x < extended y := by
  have hlt : x < y ↔ x.toModel.unpack.lt y.toModel.unpack = true := decide_eq_true_iff
  rw [hlt]
  show _ ↔ x.toModel.unpack.isNaN = false ∧ y.toModel.unpack.isNaN = false ∧ _
  by_cases hx : x.toModel.unpack.isNaN = false
  · by_cases hy : y.toModel.unpack.isNaN = false
    · rw [lt_eq (settled_toModel x).tidy (settled_toModel y).tidy hx hy]
      exact ⟨fun h => ⟨hx, hy, h⟩, fun h => h.2.2⟩
    · rw [UnpackedFloat.lt, compare_of_isNaN (Or.inr (by simpa using hy))]
      simp [hy]
  · rw [UnpackedFloat.lt, compare_of_isNaN (Or.inl (by simpa using hx))]
    simp [hx]

/-- Floats compare as equal if both are numbers and the same; the two zeros are. -/
theorem beq_iff :
    (x == y) = true ↔ x.isNaN = false ∧ y.isNaN = false ∧ extended x = extended y := by
  show x.toModel.unpack.beq y.toModel.unpack = true ↔
    x.toModel.unpack.isNaN = false ∧ y.toModel.unpack.isNaN = false ∧ _
  by_cases hx : x.toModel.unpack.isNaN = false
  · by_cases hy : y.toModel.unpack.isNaN = false
    · rw [beq_eq (settled_toModel x).tidy (settled_toModel y).tidy hx hy]
      exact ⟨fun h => ⟨hx, hy, h⟩, fun h => h.2.2⟩
    · rw [UnpackedFloat.beq, compare_of_isNaN (Or.inr (by simpa using hy))]
      simp [hy]
  · rw [UnpackedFloat.beq, compare_of_isNaN (Or.inl (by simpa using hx))]
    simp [hx]

/-- What is not a number is less than nothing, and nothing is less than it. -/
protected theorem not_lt_of_isNaN (h : x.isNaN = true ∨ y.isNaN = true) : ¬x < y := by
  rw [lt_iff]
  rintro ⟨hx, hy, -⟩
  rw [hx, hy] at h
  simp at h

protected theorem le_refl (h : x.isNaN = false) : x ≤ x := le_iff.mpr ⟨h, h, le_rfl⟩

protected theorem le_trans (hxy : x ≤ y) (hyz : y ≤ z) : x ≤ z := by
  obtain ⟨hx, -, hxy⟩ := le_iff.mp hxy
  obtain ⟨-, hz, hyz⟩ := le_iff.mp hyz
  exact le_iff.mpr ⟨hx, hz, hxy.trans hyz⟩

protected theorem lt_trans (hxy : x < y) (hyz : y < z) : x < z := by
  obtain ⟨hx, -, hxy⟩ := lt_iff.mp hxy
  obtain ⟨-, hz, hyz⟩ := lt_iff.mp hyz
  exact lt_iff.mpr ⟨hx, hz, hxy.trans hyz⟩

protected theorem le_of_lt (h : x < y) : x ≤ y := by
  obtain ⟨hx, hy, hlt⟩ := lt_iff.mp h
  exact le_iff.mpr ⟨hx, hy, hlt.le⟩

protected theorem not_lt_of_le (h : x ≤ y) : ¬y < x := fun hlt =>
  not_lt.mpr (le_iff.mp h).2.2 (lt_iff.mp hlt).2.2

/-- Between two numbers, what is not less is at least as large. -/
protected theorem le_of_not_lt (hx : x.isNaN = false) (hy : y.isNaN = false)
    (h : ¬x < y) : y ≤ x := by
  rw [lt_iff] at h
  exact le_iff.mpr ⟨hy, hx, not_lt.mp fun hlt => h ⟨hx, hy, hlt⟩⟩

protected theorem lt_of_not_le (hx : x.isNaN = false) (hy : y.isNaN = false)
    (h : ¬x ≤ y) : y < x := by
  rw [le_iff] at h
  exact lt_iff.mpr ⟨hy, hx, not_le.mp fun hle => h ⟨hx, hy, hle⟩⟩

/-- What lies between finite floats is finite. -/
theorem isFinite_of_between (hx : x.isFinite = true) (hz : z.isFinite = true) (hxy : x ≤ y)
    (hyz : y ≤ z) : y.isFinite = true := by
  obtain ⟨-, hy, hxy⟩ := le_iff.mp hxy
  obtain ⟨-, -, hyz⟩ := le_iff.mp hyz
  exact isFinite_iff.mpr ⟨hy, (isFinite_iff.mp hx).2.1.trans_le hxy,
    hyz.trans_lt (isFinite_iff.mp hz).2.2⟩

theorem real_le_real (hx : x.isFinite = true) (hy : y.isFinite = true) :
    real x ≤ real y ↔ x ≤ y := by
  rw [le_iff, extended_eq_real hx, extended_eq_real hy, EReal.coe_le_coe_iff]
  exact ⟨fun h => ⟨isNaN_of_isFinite hx, isNaN_of_isFinite hy, h⟩, fun h => h.2.2⟩

theorem extended_zero : extended 0 = 0 := by
  have hunpack : (0 : Float).toModel.unpack = .zero .positive := rfl
  rw [extended, hunpack]
  rfl

/-- The one float beyond every number is the positive infinity. -/
theorem extended_eq_top_iff : extended x = ⊤ ↔ x.isInf = true ∧ 0 < x := by
  constructor
  · intro h
    have hinf : x.toModel.unpack.isInf = true := by
      unfold extended at h
      cases hu : x.toModel.unpack with
      | infinity sign => rfl
      | notANumber => rw [hu] at h; exact absurd h EReal.zero_ne_top
      | zero sign => rw [hu] at h; exact absurd h EReal.zero_ne_top
      | finite sign m e hm => rw [hu] at h; exact absurd h (EReal.coe_ne_top _)
    have hnan : x.toModel.unpack.isNaN = false := by
      cases hu : x.toModel.unpack <;> rw [hu] at hinf <;> first | rfl | cases hinf
    refine ⟨hinf, lt_iff.mpr ⟨by decide, hnan, ?_⟩⟩
    rw [h, extended_zero]
    exact EReal.zero_lt_top
  · rintro ⟨hinf, hpos⟩
    have hpos := (lt_iff.mp hpos).2.2
    rw [extended_zero] at hpos
    change x.toModel.unpack.isInf = true at hinf
    unfold extended at hpos ⊢
    cases hu : x.toModel.unpack with
    | infinity sign =>
        rw [hu] at hpos
        cases sign
        · exact absurd hpos not_lt_bot
        · rfl
    | _ => rw [hu] at hinf; cases hinf

/-! ### Operations on finite floats -/

/-- A float is the one nearest to a real number. -/
structure Rounds (x : Float) (r : ℝ) : Prop where
  /-- The float is a number. -/
  isNaN_eq : x.isNaN = false
  /-- It denotes the nearest one. -/
  extended_eq : extended x = nearest r

theorem rounds_pack {u : UnpackedFloat} (h : IsNearest u r) : Rounds (.ofModel (.pack u)) r := by
  obtain ⟨htidy, hnan, hvalue⟩ := h
  have hunpack : (Float.ofModel (.pack u)).toModel.unpack = settle u := unpack_pack htidy
  constructor
  · show (Float.ofModel (.pack u)).toModel.unpack.isNaN = false
    rw [hunpack]
    cases u with
    | finite sign m e hm =>
        unfold settle
        dsimp only
        split_ifs <;> rfl
    | _ => exact hnan
  · rw [extended, hunpack, hvalue]

/-- A finite float is nearest to its own number. -/
theorem nearest_real (h : x.isFinite = true) : nearest (real x) = real x := by
  obtain ⟨-, -, hvalue⟩ := isNearest_self (settled_toModel x) h
  rw [settle_of_settled (settled_toModel x)] at hvalue
  exact hvalue.symm.trans (extended_eq_real h)

theorem rounds_add (hx : x.isFinite = true) (hy : y.isFinite = true) :
    Rounds (x + y) (real x + real y) :=
  rounds_pack (isNearest_add (settled_toModel x) (settled_toModel y) hx hy)

theorem rounds_sub (hx : x.isFinite = true) (hy : y.isFinite = true) :
    Rounds (x - y) (real x - real y) :=
  rounds_pack (isNearest_sub (settled_toModel x) (settled_toModel y) hx hy)

theorem rounds_mul (hx : x.isFinite = true) (hy : y.isFinite = true) :
    Rounds (x * y) (real x * real y) :=
  rounds_pack (isNearest_mul (settled_toModel x) (settled_toModel y) hx hy)

theorem rounds_div (hx : x.isFinite = true) (hy : y.isFinite = true) (hy0 : real y ≠ 0) :
    Rounds (x / y) (real x / real y) :=
  rounds_pack (isNearest_div hx hy hy0)

theorem rounds_ofNat (n : ℕ) : Rounds (.ofModel (.ofNat n)) n := by
  have h := isNearest_normalize n 0
  rw [zpow_zero, mul_one] at h
  exact rounds_pack h

theorem rounds_uint8 (n : UInt8) : Rounds n.toFloat n.toNat := rounds_ofNat n.toNat

theorem rounds_uint16 (n : UInt16) : Rounds n.toFloat n.toNat := rounds_ofNat n.toNat

theorem rounds_uint64 (n : UInt64) : Rounds n.toFloat n.toNat := rounds_ofNat n.toNat

/-- Rounding keeps the order, also against a float that is there already. -/
theorem Rounds.le (h : Rounds x r) (hy : y.isFinite = true) (hr : r ≤ real y) : x ≤ y := by
  refine le_iff.mpr ⟨h.isNaN_eq, isNaN_of_isFinite hy, ?_⟩
  rw [h.extended_eq, extended_eq_real hy, ← nearest_real hy]
  exact nearest_mono hr

theorem Rounds.ge (h : Rounds x r) (hy : y.isFinite = true) (hr : real y ≤ r) : y ≤ x := by
  refine le_iff.mpr ⟨isNaN_of_isFinite hy, h.isNaN_eq, ?_⟩
  rw [h.extended_eq, extended_eq_real hy, ← nearest_real hy]
  exact nearest_mono hr

theorem Rounds.mono {s : ℝ} (hx : Rounds x r) (hy : Rounds y s) (h : r ≤ s) : x ≤ y := by
  refine le_iff.mpr ⟨hx.isNaN_eq, hy.isNaN_eq, ?_⟩
  rw [hx.extended_eq, hy.extended_eq]
  exact nearest_mono h

theorem Rounds.isFinite (h : Rounds x r) (hr : |r| < (2 ^ 53 - 1 / 2) * coarsest) :
    x.isFinite = true := by
  obtain ⟨hlow, hhigh⟩ := abs_lt.mp hr
  refine isFinite_iff.mpr ⟨h.isNaN_eq, ?_, ?_⟩ <;> rw [h.extended_eq]
  · exact bot_lt_nearest hlow
  · exact nearest_lt_top hhigh

/-- No finite float is larger than 53 ones before the coarsest last place. -/
theorem abs_real_le (h : x.isFinite = true) : |real x| ≤ (2 ^ 53 - 1) * coarsest := by
  have hsettled := settled_toModel x
  have hc := coarsest_pos
  unfold real
  change x.toModel.unpack.isFinite = true at h
  cases hu : x.toModel.unpack with
  | notANumber => rw [hu] at h; cases h
  | infinity sign => rw [hu] at h; cases h
  | zero sign =>
      rw [exact_zero, abs_zero]
      exact mul_nonneg (by norm_num) hc.le
  | finite sign m e hm =>
      rw [hu] at hsettled
      have hmag : |withSign sign ((m : ℝ) * 2 ^ e)| = m * 2 ^ e := by
        have hpos : (0 : ℝ) ≤ m * 2 ^ e := by positivity
        cases sign <;> simp [withSign, Sign.apply, abs_of_nonneg hpos]
      rw [exact_finite, hmag]
      -- 53 places hold at most this, and no place is coarser
      have hm' : (m : ℝ) ≤ 2 ^ 53 - 1 := by
        have : m + 1 ≤ 2 ^ 53 := hsettled.1.1
        have : (m : ℝ) + 1 ≤ 2 ^ 53 := by exact_mod_cast this
        linarith
      have he : (2 : ℝ) ^ e ≤ coarsest := zpow_le_zpow_right₀ one_le_two hsettled.2
      exact mul_le_mul hm' he (by positivity) (by norm_num)

/-! ### Whole numbers -/

/-- A finite float that denotes a given real number. -/
structure Denotes (x : Float) (r : ℝ) : Prop where
  /-- The float is finite. -/
  isFinite_eq : x.isFinite = true
  /-- It denotes the number. -/
  real_eq : real x = r

/-- What rounds to a number within the range denotes that number. -/
theorem Rounds.denotes_nearest {s : ℝ} (h : Rounds x r) (hr : nearest r = s) : Denotes x s := by
  have hext : extended x = s := h.extended_eq.trans hr
  have hfin : x.isFinite = true := by
    rw [isFinite_iff, hext]
    exact ⟨h.isNaN_eq, EReal.bot_lt_coe _, EReal.coe_lt_top _⟩
  exact ⟨hfin, EReal.coe_eq_coe_iff.mp ((extended_eq_real hfin).symm.trans hext)⟩

/-- A number that needs no rounding is denoted by what it rounds to. -/
theorem Rounds.denotes (h : Rounds x r) (hr : nearest r = r) : Denotes x r := h.denotes_nearest hr

theorem nearest_natCast {n : ℕ} (h : n < 2 ^ 53) : nearest n = (n : ℝ) := by
  have := nearest_eq_coe (m := n) (e := 0) (by simpa using h) (by norm_num) (by norm_num)
  simpa using this

theorem nearest_intCast {n : ℤ} (h : n.natAbs < 2 ^ 53) : nearest n = (n : ℝ) := by
  have := nearest_eq_coe (m := n) (e := 0) h (by norm_num) (by norm_num)
  simpa using this

theorem denotes_uint8 (n : UInt8) : Denotes n.toFloat n.toNat :=
  (rounds_uint8 n).denotes (nearest_natCast (by have := n.toNat_lt; omega))

theorem denotes_uint16 (n : UInt16) : Denotes n.toFloat n.toNat :=
  (rounds_uint16 n).denotes (nearest_natCast (by have := n.toNat_lt; omega))

/-- A whole number below the 53 places turns into a float that denotes it. -/
theorem denotes_toFloat {n : ℕ} (h : n < 2 ^ 53) : Denotes n.toUInt64.toFloat n := by
  have hround := rounds_uint64 n.toUInt64
  rw [Nat.toUInt64, UInt64.toNat_ofNat_of_lt' (by rw [UInt64.size]; omega)] at hround
  exact hround.denotes (nearest_natCast h)

/-- **A numeral below the 53 places denotes its number.** -/
theorem denotes_ofNat (n : ℕ) (h : n < 2 ^ 53) : Denotes (OfNat.ofNat n) n := by
  have hone : Denotes (Float.ofBits 0x3FF0000000000000) 1 := by
    have hbits : Float.ofBits 0x3FF0000000000000 = (1 : UInt8).toFloat := by decide
    rw [hbits]
    simpa using denotes_uint8 1
  -- a numeral is read as a whole number times the zeroth power of ten
  have hlit : (OfNat.ofNat n : Float) = n.toUInt64.toFloat * Float.ofBits 0x3FF0000000000000 := by
    show Float.ofScientific n false 0 = _
    rw [Float.ofScientific, dif_pos ⟨h, by norm_num⟩]
    rfl
  have hn := denotes_toFloat h
  have hprod := rounds_mul hn.isFinite_eq hone.isFinite_eq
  rw [hn.real_eq, hone.real_eq, mul_one] at hprod
  rw [hlit]
  exact hprod.denotes (nearest_natCast h)

theorem denotes_zero : Denotes 0 0 := by simpa using denotes_ofNat 0 (by norm_num)

theorem denotes_one : Denotes 1 1 := by simpa using denotes_ofNat 1 (by norm_num)

/-- An opposite is unpacked as one. -/
theorem unpack_neg (x : Float) : (-x).toModel.unpack = x.toModel.unpack.neg := by
  have hsettled := (settled_toModel x).neg
  exact (unpack_pack hsettled.tidy).trans (settle_of_settled hsettled)

theorem Denotes.neg (h : Denotes x r) : Denotes (-x) (-r) := by
  obtain ⟨hfin, rfl⟩ := h
  have hunpack := unpack_neg x
  constructor
  · show (-x).toModel.unpack.isFinite = true
    change x.toModel.unpack.isFinite = true at hfin
    rw [hunpack]
    cases hu : x.toModel.unpack <;> rw [hu] at hfin <;> exact hfin
  · rw [real, hunpack, exact_neg]
    rfl

/-! ### What is not a number -/

theorem isNaN_pack {u : UnpackedFloat} (h : Tidy u) :
    (Float.ofModel (.pack u)).isNaN = u.isNaN := by
  have hunpack : (Float.ofModel (.pack u)).toModel.unpack = settle u := unpack_pack h
  show (Float.ofModel (.pack u)).toModel.unpack.isNaN = _
  rw [hunpack]
  cases u with
  | finite sign m e hm =>
      unfold settle
      dsimp only
      split_ifs <;> rfl
  | _ => rfl

theorem isNaN_pack_infinity (sign : Sign) :
    (Float.ofModel (.pack (.infinity sign))).isNaN = false :=
  isNaN_pack (u := .infinity sign) trivial

theorem isNaN_pack_notANumber : (Float.ofModel (.pack .notANumber)).isNaN = true :=
  isNaN_pack (u := .notANumber) trivial

theorem unpack_of_isNaN (h : x.isNaN = true) : x.toModel.unpack = .notANumber := by
  change x.toModel.unpack.isNaN = true at h
  cases hu : x.toModel.unpack <;> rw [hu] at h <;> first | rfl | cases h

/-- A number that is not finite is one of the two infinities. -/
theorem unpack_of_not_isFinite (hx : x.isNaN = false) (h : x.isFinite = false) :
    ∃ sign, x.toModel.unpack = .infinity sign := by
  change x.toModel.unpack.isNaN = false at hx
  change x.toModel.unpack.isFinite = false at h
  cases hu : x.toModel.unpack with
  | infinity sign => exact ⟨sign, rfl⟩
  | notANumber => rw [hu] at hx; cases hx
  | _ => rw [hu] at h; cases h

theorem isNaN_add_of_right (x : Float) (h : y.isNaN = true) : (x + y).isNaN = true := by
  show (Float.ofModel (.pack (.add _ x.toModel.unpack y.toModel.unpack))).isNaN = true
  rw [unpack_of_isNaN h, show UnpackedFloat.add Format.binary64 x.toModel.unpack .notANumber =
    .notANumber by cases x.toModel.unpack <;> rfl]
  exact isNaN_pack_notANumber

theorem isNaN_mul_of_left (h : x.isNaN = true) (y : Float) : (x * y).isNaN = true := by
  show (Float.ofModel (.pack (.mul _ x.toModel.unpack y.toModel.unpack))).isNaN = true
  rw [unpack_of_isNaN h]
  exact isNaN_pack_notANumber

theorem isNaN_mul_of_right (x : Float) (h : y.isNaN = true) : (x * y).isNaN = true := by
  show (Float.ofModel (.pack (.mul _ x.toModel.unpack y.toModel.unpack))).isNaN = true
  rw [unpack_of_isNaN h, show UnpackedFloat.mul Format.binary64 x.toModel.unpack .notANumber =
    .notANumber by cases x.toModel.unpack <;> rfl]
  exact isNaN_pack_notANumber

theorem isNaN_div_of_left (h : x.isNaN = true) (y : Float) : (x / y).isNaN = true := by
  show (Float.ofModel (.pack (.div _ x.toModel.unpack y.toModel.unpack))).isNaN = true
  rw [unpack_of_isNaN h]
  exact isNaN_pack_notANumber

theorem isNaN_sub_of_left (h : x.isNaN = true) (y : Float) : (x - y).isNaN = true := by
  show (Float.ofModel (.pack (.sub _ x.toModel.unpack y.toModel.unpack))).isNaN = true
  rw [unpack_of_isNaN h]
  exact isNaN_pack_notANumber

theorem isNaN_sub_of_right (x : Float) (h : y.isNaN = true) : (x - y).isNaN = true := by
  show (Float.ofModel (.pack (.sub _ x.toModel.unpack y.toModel.unpack))).isNaN = true
  rw [unpack_of_isNaN h, show UnpackedFloat.sub Format.binary64 x.toModel.unpack .notANumber =
    .notANumber by cases x.toModel.unpack <;> rfl]
  exact isNaN_pack_notANumber

/-- A finite float and any number add up to a number. -/
theorem isNaN_add (hx : x.isFinite = true) (hy : y.isNaN = false) : (x + y).isNaN = false := by
  by_cases hfin : y.isFinite = true
  · exact (rounds_add hx hfin).isNaN_eq
  · obtain ⟨sign, hu⟩ := unpack_of_not_isFinite hy (by simpa using hfin)
    change x.toModel.unpack.isFinite = true at hx
    show (Float.ofModel (.pack (.add _ x.toModel.unpack y.toModel.unpack))).isNaN = false
    rw [hu]
    cases hx' : x.toModel.unpack with
    | notANumber => rw [hx'] at hx; cases hx
    | infinity sign' => rw [hx'] at hx; cases hx
    | _ => exact isNaN_pack_infinity sign

/-- Any number times a finite one other than zero is a number. -/
theorem isNaN_mul (hx : x.isNaN = false) (hy : y.isFinite = true) (hy0 : real y ≠ 0) :
    (x * y).isNaN = false := by
  by_cases hfin : x.isFinite = true
  · exact (rounds_mul hfin hy).isNaN_eq
  · obtain ⟨sign, hu⟩ := unpack_of_not_isFinite hx (by simpa using hfin)
    change y.toModel.unpack.isFinite = true at hy
    unfold real at hy0
    show (Float.ofModel (.pack (.mul _ x.toModel.unpack y.toModel.unpack))).isNaN = false
    rw [hu]
    cases hy' : y.toModel.unpack with
    | finite sign' m e hm => exact isNaN_pack_infinity _
    | zero sign' => rw [hy'] at hy0; exact absurd rfl hy0
    | _ => rw [hy'] at hy; cases hy

/-- A finite float taken from or reduced by an infinity leaves an infinity. -/
theorem isNaN_sub (hx : x.isNaN = false) (hy : y.isNaN = false)
    (h : x.isFinite = true ∨ y.isFinite = true) : (x - y).isNaN = false := by
  by_cases hxfin : x.isFinite = true
  · by_cases hyfin : y.isFinite = true
    · exact (rounds_sub hxfin hyfin).isNaN_eq
    · obtain ⟨sign, hu⟩ := unpack_of_not_isFinite hy (by simpa using hyfin)
      change x.toModel.unpack.isFinite = true at hxfin
      show (Float.ofModel (.pack (.sub _ x.toModel.unpack y.toModel.unpack))).isNaN = false
      rw [hu]
      cases hx' : x.toModel.unpack with
      | notANumber => rw [hx'] at hxfin; cases hxfin
      | infinity sign' => rw [hx'] at hxfin; cases hxfin
      | _ => exact isNaN_pack_infinity _
  · have hyfin : y.toModel.unpack.isFinite = true := h.resolve_left hxfin
    obtain ⟨sign, hu⟩ := unpack_of_not_isFinite hx (by simpa using hxfin)
    show (Float.ofModel (.pack (.sub _ x.toModel.unpack y.toModel.unpack))).isNaN = false
    rw [hu]
    cases hy' : y.toModel.unpack with
    | notANumber => rw [hy'] at hyfin; cases hyfin
    | infinity sign' => rw [hy'] at hyfin; cases hyfin
    | _ => exact isNaN_pack_infinity _

/-- **A difference of numbers is not a number only if one infinity is taken from itself.** -/
theorem isNaN_sub_iff (hx : x.isNaN = false) (hy : y.isNaN = false) :
    (x - y).isNaN = true ↔ x.isFinite = false ∧ extended x = extended y := by
  by_cases hfin : x.isFinite = true ∨ y.isFinite = true
  · refine iff_of_false (Bool.eq_false_iff.mp (isNaN_sub hx hy hfin)) ?_
    rintro ⟨hxfin, heq⟩
    have hyfin : y.isFinite = true := hfin.resolve_left (by simp [hxfin])
    obtain ⟨-, hbot, htop⟩ := isFinite_iff.mp hyfin
    have hxfin' := isFinite_iff.mpr ⟨hx, heq ▸ hbot, heq ▸ htop⟩
    rw [hxfin] at hxfin'
    cases hxfin'
  · have hxfin : x.isFinite = false := eq_false_of_ne_true fun h => hfin (Or.inl h)
    have hyfin : y.isFinite = false := eq_false_of_ne_true fun h => hfin (Or.inr h)
    obtain ⟨sign, hu⟩ := unpack_of_not_isFinite hx hxfin
    obtain ⟨sign', hv⟩ := unpack_of_not_isFinite hy hyfin
    show (Float.ofModel (.pack (.sub _ x.toModel.unpack y.toModel.unpack))).isNaN = true ↔ _
    rw [hxfin, extended, extended, hu, hv]
    -- like signs cancel to nothing, unlike ones leave the first
    cases sign <;> cases sign'
    · exact iff_of_true isNaN_pack_notANumber ⟨rfl, rfl⟩
    · exact iff_of_false (Bool.eq_false_iff.mp (isNaN_pack_infinity _))
        fun h => bot_ne_top h.2
    · exact iff_of_false (Bool.eq_false_iff.mp (isNaN_pack_infinity _))
        fun h => top_ne_bot h.2
    · exact iff_of_true isNaN_pack_notANumber ⟨rfl, rfl⟩

end

end HeatingPlant.Floating
