import HeatingPlant.Proofs.Floating.Truncation
import HeatingPlant.Proofs.Registers.Tenths

/-!
# Words of tenths keep order and value

A quantity is published as its tenths, cut toward zero except just below a whole number.  Larger
quantities have larger words, a word is less than one off ten times the quantity, and a quantity
beyond the words has the last of them.

## Main definitions

* `Tenths.settle` — what a product comes to as a whole number
* `Tenths.snap` — the same for real numbers

## Main statements

* `Tenths.snap_eq_of_nonneg` — cutting with slack is cutting after adding the slack, almost
* `Tenths.snap_mono`, `Tenths.abs_snap_sub_le` — its order, and how far it moves a number
* `Tenths.denotes_settle`, `Tenths.settle_mono` — floats do as the real numbers that they denote
* `Tenths.encoding_faithful` — the words

## Design notes

What a product differs by from the nearest whole number is a float, so that its comparison with
the slack is exact, and the edges of the window at which rounding takes over from cutting are the
same on the way up and on the way down.  From `2 ^ 52` on a float is its own whole part.
-/

namespace HeatingPlant.Tenths

open Floating

noncomputable section

variable {x y : Float} {r s : ℝ}

/-! ### Real numbers -/

/-- A number rounded if it lies within the slack of a whole number, and cut toward zero if not. -/
def snap (r : ℝ) : ℤ := if |r - roundAway r| < real slack then roundAway r else towardZero r

theorem isFinite_slack : slack.isFinite = true := by decide

/-- The slack is about a millionth. -/
theorem slack_bounds : 1 / 2 ^ 20 ≤ real slack ∧ real slack ≤ 1 / 2 := by
  have hquotient := (denotes_ofNat 1 (by norm_num)).rounds_div
    (denotes_ofNat 1048576 (by norm_num)) (by norm_num)
  have htwenty : Denotes (1 / 1048576) (2 ^ (-20 : ℤ)) := by
    have hexact := nearest_eq_coe (m := 1) (e := -20) (by norm_num) (by norm_num) (by norm_num)
    norm_num at hquotient hexact ⊢
    exact hquotient.denotes hexact
  have hlow : (1 / 1048576 : Float) ≤ slack := by decide +kernel
  have hhigh : slack ≤ 0.5 := by decide +kernel
  have hlow' := (htwenty.le_iff ⟨isFinite_slack, rfl⟩).mp hlow
  have hhigh' := ((Denotes.mk isFinite_slack rfl).le_iff denotes_half).mp hhigh
  norm_num at hlow' ⊢
  exact ⟨hlow', hhigh'⟩

theorem snap_neg (r : ℝ) : snap (-r) = -snap r := by
  have hopposite : -r - roundAway (-r) = -(r - roundAway r) := by
    rw [roundAway_neg]
    push_cast
    ring
  unfold snap
  rw [hopposite, abs_neg, roundAway_neg, towardZero_neg]
  split <;> rfl

/-- **Cutting with slack is cutting after the slack was added**, except that what comes to a whole
number exactly is still below it. -/
theorem snap_eq_of_nonneg (hr : 0 ≤ r) : snap r = ⌈r + real slack⌉ - 1 := by
  obtain ⟨hslack, hhalf⟩ := slack_bounds
  have hpos : 0 < real slack := lt_of_lt_of_le (by norm_num) hslack
  have hfloor := Int.floor_le r
  have hcut : towardZero r = ⌊r⌋ := if_neg (not_lt.mpr hr)
  rw [eq_sub_iff_add_eq, eq_comm, Int.ceil_eq_iff]
  unfold snap
  rw [hcut]
  split
  case isTrue hnear =>
    obtain ⟨hlow, hhigh⟩ := abs_lt.mp hnear
    push_cast
    constructor <;> linarith
  case isFalse hfar =>
    push_cast
    refine ⟨by linarith, not_lt.mp fun habove => hfar ?_⟩
    -- so little is missing to the next whole number that this is the nearest one
    have hnext : |r - (⌊r⌋ + 1 : ℤ)| < real slack := by
      have := Int.lt_floor_add_one r
      push_cast
      rw [abs_lt]
      constructor <;> linarith
    rwa [roundAway_eq (hnext.trans_le hhalf)]

/-- **The order is kept**, within the slack and beside it, on both sides of zero. -/
theorem snap_mono (h : r ≤ s) : snap r ≤ snap s := by
  have hmono : ∀ {r s : ℝ}, 0 ≤ r → r ≤ s → snap r ≤ snap s := by
    intro r s hr h
    rw [snap_eq_of_nonneg hr, snap_eq_of_nonneg (hr.trans h)]
    exact sub_le_sub_right (Int.ceil_mono (by linarith)) 1
  have hzero : snap 0 = 0 := by
    have := snap_neg 0
    rw [neg_zero] at this
    omega
  rcases le_total 0 r with hr | hr
  · exact hmono hr h
  rcases le_total 0 s with hs | hs
  · have hlow := hmono le_rfl (neg_nonneg.mpr hr)
    have hhigh := hmono le_rfl hs
    rw [snap_neg, hzero] at hlow
    omega
  · have hopposite := hmono (neg_nonneg.mpr hs) (neg_le_neg h)
    rw [snap_neg, snap_neg] at hopposite
    omega

theorem snap_intCast (n : ℤ) : snap n = n := by
  obtain ⟨hslack, -⟩ := slack_bounds
  have hround : roundAway (n : ℝ) = n := roundAway_eq (by rw [sub_self, abs_zero]; norm_num)
  have hnear : |(n : ℝ) - roundAway (n : ℝ)| < real slack := by
    rw [hround, sub_self, abs_zero]
    exact lt_of_lt_of_le (by norm_num) hslack
  rw [snap, if_pos hnear, hround]

/-- Between whole numbers a number comes to one between them. -/
theorem snap_mem {low high : ℤ} (hlow : low ≤ r) (hhigh : r ≤ high) :
    low ≤ snap r ∧ snap r ≤ high :=
  ⟨snap_intCast low ▸ snap_mono hlow, snap_intCast high ▸ snap_mono hhigh⟩

/-- **A number moves by less than one**, and the slack is what is left of one. -/
theorem abs_snap_sub_le (r : ℝ) : |snap r - r| ≤ 1 - real slack := by
  obtain ⟨hslack, hhalf⟩ := slack_bounds
  have hbound : ∀ {r : ℝ}, 0 ≤ r → |snap r - r| ≤ 1 - real slack := by
    intro r hr
    have hlow := Int.le_ceil (r + real slack)
    have hhigh := Int.ceil_lt_add_one (r + real slack)
    rw [snap_eq_of_nonneg hr, abs_le]
    push_cast
    constructor <;> linarith
  rcases le_total 0 r with hr | hr
  · exact hbound hr
  · have hopposite := hbound (neg_nonneg.mpr hr)
    rw [snap_neg, ← abs_neg] at hopposite
    push_cast at hopposite
    rwa [neg_sub, sub_neg_eq_add, neg_add_eq_sub] at hopposite

/-! ### Products -/

/-- What a product comes to as a whole number. -/
def settle (product : Float) : Float :=
  if (product - Number.nearest product).abs < slack then Number.nearest product
  else Number.truncate product

theorem ofFloat_eq_settle (x : Float) : ofFloat x = settle (x * 10) := rfl

/-- **A product comes to what the number that it denotes comes to.** -/
theorem denotes_settle (h : Denotes x r) (hr : |r| < 2 ^ 52) : Denotes (settle x) (snap r) := by
  have hdifference := (denotes_sub_nearest h hr).abs
  have hwithin : (x - Number.nearest x).abs < slack ↔ |r - roundAway r| < real slack :=
    hdifference.lt_iff ⟨isFinite_slack, rfl⟩
  unfold settle snap
  by_cases hnear : |r - roundAway r| < real slack
  · rw [if_pos (hwithin.mpr hnear), if_pos hnear]
    exact denotes_nearest h hr
  · rw [if_neg (mt hwithin.mp hnear), if_neg hnear]
    exact denotes_truncate h hr

/-- A large product is left alone, and so is an infinite one. -/
theorem settle_of_large (h : ¬x.abs < Number.wholeFrom) : settle x = x := by
  unfold settle
  rw [nearest_of_large h, truncate_of_large h, ite_self]

/-- **The order is kept**, by large and infinite products too. -/
theorem settle_mono (h : x ≤ y) : settle x ≤ settle y := by
  obtain ⟨hx, hy, hle⟩ := le_iff.mp h
  have hsmall : ∀ {z : Float} {t : ℝ}, Denotes z t → |t| < 2 ^ 52 →
      Denotes (settle z) (snap t) ∧ (-2 ^ 52 : ℝ) ≤ snap t ∧ (snap t : ℝ) ≤ 2 ^ 52 := by
    intro z t hz ht
    obtain ⟨hlow, hhigh⟩ := abs_lt.mp ht
    have hmem := @snap_mem t (-2 ^ 52) (2 ^ 52) (by push_cast; linarith) (by push_cast; linarith)
    exact ⟨denotes_settle hz ht, by exact_mod_cast hmem.1, by exact_mod_cast hmem.2⟩
  rcases small_or_large hx with ⟨r, hr, hr'⟩ | ⟨hlarge, hside⟩ <;>
    rcases small_or_large hy with ⟨s, hs, hs'⟩ | ⟨hlarge', hside'⟩
  case inl.inl =>
    have hsnap := snap_mono ((hr.le_iff hs).mp h)
    exact ((hsmall hr hr').1.le_iff (hsmall hs hs').1).mpr (by exact_mod_cast hsnap)
  case inl.inr =>
    obtain ⟨hsettled, -, hhigh⟩ := hsmall hr hr'
    rw [settle_of_large hlarge']
    rw [extended_eq_real hr.isFinite_eq, hr.real_eq] at hle
    have habove : ((2 ^ 52 : ℝ) : EReal) ≤ extended y := by
      refine hside'.resolve_left fun hbelow => ?_
      have := EReal.coe_le_coe_iff.mp (hle.trans hbelow)
      linarith [(abs_lt.mp hr').1]
    refine le_iff.mpr ⟨isNaN_of_isFinite hsettled.isFinite_eq, hy, ?_⟩
    rw [extended_eq_real hsettled.isFinite_eq, hsettled.real_eq]
    exact (EReal.coe_le_coe_iff.mpr hhigh).trans habove
  case inr.inl =>
    obtain ⟨hsettled, hlow, -⟩ := hsmall hs hs'
    rw [settle_of_large hlarge]
    rw [extended_eq_real hs.isFinite_eq, hs.real_eq] at hle
    have hbelow : extended x ≤ ((-2 ^ 52 : ℝ) : EReal) := by
      refine hside.resolve_right fun habove => ?_
      have := EReal.coe_le_coe_iff.mp (habove.trans hle)
      linarith [(abs_lt.mp hs').2]
    refine le_iff.mpr ⟨hx, isNaN_of_isFinite hsettled.isFinite_eq, ?_⟩
    rw [extended_eq_real hsettled.isFinite_eq, hsettled.real_eq]
    exact hbelow.trans (EReal.coe_le_coe_iff.mpr hlow)
  case inr.inr =>
    rwa [settle_of_large hlarge, settle_of_large hlarge']

/-- Tenfold quantities are in the same order. -/
theorem mul_ten_mono (h : x ≤ y) : x * 10 ≤ y * 10 := by
  have hpos : 0 < real 10 := by
    rw [denotes_ten.real_eq]
    norm_num
  exact mul_le_mul_finite h denotes_ten.isFinite_eq hpos

theorem ofFloat_mono (h : x ≤ y) : ofFloat x ≤ ofFloat y := by
  rw [ofFloat_eq_settle, ofFloat_eq_settle]
  exact settle_mono (mul_ten_mono h)

/-- **A quantity whose product lies between whole numbers comes to one between them, which is less
than one off ten times the quantity.** -/
theorem exists_denotes_ofFloat {low high : ℤ} {least most : Float} (hx : -10000 ≤ x)
    (hx' : x ≤ 10000) (hlow : Denotes least low) (hhigh : Denotes most high)
    (hle : least ≤ x * 10) (hle' : x * 10 ≤ most)
    (hwords : -2 ^ 16 ≤ low ∧ high ≤ 2 ^ 16) :
    ∃ n : ℤ, Denotes (ofFloat x) n ∧ low ≤ n ∧ n ≤ high ∧
      |(n : ℝ) - 10 * real x| < 1 := by
  obtain ⟨hslack, -⟩ := slack_bounds
  have hmost : Denotes 10000 10000 := denotes_ofNat 10000 (by norm_num)
  have hself : Denotes x (real x) :=
    ⟨isFinite_of_between hmost.neg.isFinite_eq hmost.isFinite_eq hx hx', rfl⟩
  have hreal := (hmost.neg.le_iff hself).mp hx
  have hreal' := (hself.le_iff hmost).mp hx'
  -- the product is off by one rounding
  obtain ⟨p, hp, herror⟩ :=
    (hself.rounds_mul denotes_ten).exists_denotes (e := -36) (by norm_num) (by norm_num)
      (by rw [abs_le]; norm_num; constructor <;> linarith)
  have hplow := (hlow.le_iff hp).mp hle
  have hphigh := (hp.le_iff hhigh).mp hle'
  have hsmall : |p| < 2 ^ 52 := by
    have hlow' : (-2 ^ 16 : ℝ) ≤ low := by exact_mod_cast hwords.1
    have hhigh' : (high : ℝ) ≤ 2 ^ 16 := by exact_mod_cast hwords.2
    rw [abs_lt]
    norm_num at hlow' hhigh' ⊢
    constructor <;> linarith
  obtain ⟨hmem, hmem'⟩ := snap_mem hplow hphigh
  refine ⟨snap p, denotes_settle hp hsmall, hmem, hmem', ?_⟩
  -- which is much less than the slack that is left of one
  have hsnap := abs_le.mp (abs_snap_sub_le p)
  have herror' := abs_le.mp herror
  rw [abs_lt]
  norm_num at hslack herror' ⊢
  constructor <;> linarith [hsnap.1, hsnap.2]

/-! ### Words -/

/-- A number in the range of the words in two's complement is read from its word. -/
theorem toInt_toInt16_ofInt {n : ℤ} (hlow : -32768 ≤ n) (hhigh : n ≤ 32767) :
    (UInt16.ofInt n).toInt16.toInt = n := by
  show (UInt16.ofInt n).toBitVec.toInt = n
  rw [BitVec.toInt_eq_toNat_bmod]
  show ((UInt16.ofInt n).toNat : ℤ).bmod 65536 = n
  rw [UInt16.ofInt, UInt16.toNat_ofNat', Int.bmod_eq_iff (by norm_num)]
  omega

/-- The signed word of a quantity stands for what its product comes to, held in the range. -/
theorem toInt_encodeSigned (x : Float) :
    (encodeSigned x).toInt16.toInt = Number.toInt16 (ofFloat x) :=
  toInt_toInt16_ofInt (Number.toInt16_bounds _).1 (Number.toInt16_bounds _).2

theorem encode_mono (h : x ≤ y) : encode x ≤ encode y := toUInt16_mono (ofFloat_mono h)

theorem encodeSigned_mono (h : x ≤ y) :
    (encodeSigned x).toInt16.toInt ≤ (encodeSigned y).toInt16.toInt := by
  rw [toInt_encodeSigned, toInt_encodeSigned]
  exact toIntWithin_mono _ _ (ofFloat_mono h)

/-- **Inside the range an unsigned word is less than one off the tenths.** -/
theorem abs_encode_sub_lt (h : 0 ≤ x) (h' : x ≤ 6553.5) :
    |((encode x).toNat : ℝ) - 10 * real x| < 1 := by
  have hproduct := mul_ten_mono h
  have hproduct' := mul_ten_mono h'
  have hleast : Denotes 0 ((0 : ℤ) : ℝ) := by simpa using denotes_zero
  have hmost : Denotes 65535 ((65535 : ℤ) : ℝ) := by
    simpa using denotes_ofNat 65535 (by norm_num)
  obtain ⟨n, hn, hlow, hhigh, hnear⟩ := exists_denotes_ofFloat
    (Floating.le_trans (by decide +kernel) h) (Floating.le_trans h' (by decide +kernel))
    hleast hmost (Floating.le_trans (by decide +kernel) hproduct)
    (Floating.le_trans hproduct' (by decide +kernel)) (by norm_num)
  obtain ⟨k, rfl⟩ := Int.eq_ofNat_of_zero_le hlow
  rw [Int.cast_natCast] at hn hnear
  have hword : (encode x).toNat = k := by
    rw [encode, toNat_toUInt16 hn (Nat.cast_nonneg k), Nat.floor_natCast]
    omega
  rwa [hword]

/-- **So it is with a signed word.** -/
theorem abs_encodeSigned_sub_lt (h : -3276.8 ≤ x) (h' : x ≤ 3276.7) :
    |((encodeSigned x).toInt16.toInt : ℝ) - 10 * real x| < 1 := by
  have hproduct := mul_ten_mono h
  have hproduct' := mul_ten_mono h'
  have hleast : Denotes (-32768) ((-32768 : ℤ) : ℝ) := by
    simpa using (denotes_ofNat 32768 (by norm_num)).neg
  have hmost : Denotes 32767 ((32767 : ℤ) : ℝ) := by
    simpa using denotes_ofNat 32767 (by norm_num)
  obtain ⟨n, hn, hlow, hhigh, hnear⟩ := exists_denotes_ofFloat
    (Floating.le_trans (by decide +kernel) h) (Floating.le_trans h' (by decide +kernel))
    hleast hmost (Floating.le_trans (by decide +kernel) hproduct)
    (Floating.le_trans hproduct' (by decide +kernel)) (by norm_num)
  rw [toInt_encodeSigned, Number.toInt16,
    toIntWithin_of_denotes hn (abs_lt.mpr ⟨by omega, by omega⟩), Number.hold_of_mem hlow hhigh]
  exact hnear

/-- **Words of tenths are faithful.**  They keep the order of all quantities that are numbers,
read as signed ones where they are signed; a quantity within the range of the words is less than a
tenth away from what its word says, and beyond the range it has the word at this end; and what an
unsigned word says is encoded as this very word. -/
theorem encoding_faithful :
    (∀ x y : Float, x ≤ y → encode x ≤ encode y ∧
        (encodeSigned x).toInt16.toInt ≤ (encodeSigned y).toInt16.toInt) ∧
      (∀ x : Float, 0 ≤ x → x ≤ 6553.5 → |((encode x).toNat : ℝ) - 10 * real x| < 1) ∧
      (∀ x : Float, -3276.8 ≤ x → x ≤ 3276.7 →
        |((encodeSigned x).toInt16.toInt : ℝ) - 10 * real x| < 1) ∧
      (∀ x : Float, (x < 0 → encode x = 0) ∧ (6553.5 < x → encode x = 65535) ∧
        (x < -3276.8 → (encodeSigned x).toInt16.toInt = -32768) ∧
        (3276.7 < x → (encodeSigned x).toInt16.toInt = 32767)) ∧
      ∀ word : UInt16, encode (decode word) = word := by
  refine ⟨fun x y h => ⟨encode_mono h, encodeSigned_mono h⟩, fun x => abs_encode_sub_lt,
    fun x => abs_encodeSigned_sub_lt,
    fun x => ⟨fun h => ?_, fun h => ?_, fun h => ?_, fun h => ?_⟩,
    encode_decode⟩
  · have hword := encode_mono (Floating.le_of_lt h)
    rw [show encode 0 = 0 by decide +kernel] at hword
    exact UInt16.le_antisymm hword UInt16.zero_le
  · have hword := encode_mono (Floating.le_of_lt h)
    rw [show encode 6553.5 = 65535 by decide +kernel] at hword
    exact UInt16.le_antisymm
      (UInt16.le_iff_toNat_le.mpr (Nat.le_of_lt_succ (UInt16.toNat_lt _))) hword
  · have hword := encodeSigned_mono (Floating.le_of_lt h)
    rw [show (encodeSigned (-3276.8)).toInt16.toInt = -32768 by decide +kernel] at hword
    exact le_antisymm hword (toInt_encodeSigned x ▸ (Number.toInt16_bounds _).1)
  · have hword := encodeSigned_mono (Floating.le_of_lt h)
    rw [show (encodeSigned 3276.7).toInt16.toInt = 32767 by decide +kernel] at hword
    exact le_antisymm (toInt_encodeSigned x ▸ (Number.toInt16_bounds _).2) hword

/-- Two degrees of frost less a hundred-millionth are published as 20 tenths below zero, since the
slack covers what is missing, and less two ten-millionths as 19; infinite heat is published as the
last word.
-/
theorem encoding_faithful_frost :
    let frost : Float := -1.99999999
    let thaw : Float := -1.9999998
    (frost ≤ thaw ∧ (encodeSigned frost).toInt16.toInt = -20 ∧
        (encodeSigned thaw).toInt16.toInt = -19 ∧
        (encodeSigned frost).toInt16.toInt ≤ (encodeSigned thaw).toInt16.toInt) ∧
      ((0 : Float) ≤ 19.57 ∧ (19.57 : Float) ≤ 6553.5 ∧
        |((encode 19.57).toNat : ℝ) - 10 * real 19.57| < 1) ∧
      (-3276.8 ≤ frost ∧ frost ≤ 3276.7 ∧
        |((encodeSigned frost).toInt16.toInt : ℝ) - 10 * real frost| < 1) ∧
      (frost < 0 ∧ encode frost = 0) ∧ (6553.5 < (1 / 0 : Float) ∧ encode (1 / 0) = 65535) ∧
      ((-1 / 0 : Float) < -3276.8 ∧ (encodeSigned (-1 / 0)).toInt16.toInt = -32768) ∧
      (3276.7 < (1 / 0 : Float) ∧ (encodeSigned (1 / 0)).toInt16.toInt = 32767) := by
  intro frost thaw
  obtain ⟨horder, hnear, hsigned, hend, -⟩ := encoding_faithful
  refine ⟨⟨by decide +kernel, by decide +kernel, by decide +kernel,
      (horder frost thaw (by decide +kernel)).2⟩,
    ⟨by decide +kernel, by decide +kernel, hnear _ (by decide +kernel) (by decide +kernel)⟩,
    ⟨by decide +kernel, by decide +kernel, hsigned _ (by decide +kernel) (by decide +kernel)⟩,
    ⟨by decide +kernel, (hend frost).1 (by decide +kernel)⟩,
    ⟨by decide +kernel, (hend _).2.1 (by decide +kernel)⟩,
    ⟨by decide +kernel, (hend _).2.2.1 (by decide +kernel)⟩,
    ⟨by decide +kernel, (hend _).2.2.2 (by decide +kernel)⟩⟩

end

end HeatingPlant.Tenths
