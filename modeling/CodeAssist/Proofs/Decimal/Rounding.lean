import Mathlib

/-!
# How far rounding goes

A product of two floating-point numbers is rounded to a significand of 53 bits. The significand is
first cut off, which leaves it below the exact value, and then it goes up by at most one, and only
where the bit behind the cut is set: so the result is off by no more than half of its last place
(`exists_round`). A product that stays below the middle between the greatest finite number and the
next power of two is therefore finite (`IsWithin.mul`).

Only numbers far above the subnormal ones are considered: whole numbers, powers of ten, and their
products.
-/

namespace CodeAssist.Decimal

open Float.Model (Format)
open Float.Model.UnpackedFloat

/-! ### Cutting off and rounding -/

/-- A significand of which some bits are cut off, with what is remembered of them. -/
def cut (significand count : Nat) : ExtendedMantissa :=
  count.repeat ExtendedMantissa.shiftRightOne ⟨significand, false, false⟩

theorem mantissa_cut (significand count : Nat) :
    (cut significand count).mantissa = significand / 2 ^ count := by
  induction count with
  | zero => exact (Nat.div_one _).symm
  | succ count ih =>
    have hstep : (cut significand (count + 1)).mantissa = (cut significand count).mantissa / 2 :=
      rfl
    rw [hstep, ih, Nat.div_div_eq_div_mul, Nat.pow_succ]

/-- A rounded significand is what is left of it, or one more where the next bit was set. -/
theorem roundedMantissa_le (em : ExtendedMantissa) :
    em.mantissa ≤ em.roundedMantissa ∧
      em.roundedMantissa ≤ em.mantissa + if em.roundBit then 1 else 0 := by
  obtain ⟨mantissa, roundBit, stickyBit⟩ := em
  unfold ExtendedMantissa.roundedMantissa ExtendedMantissa.accuracy
  cases roundBit with
  | false => cases stickyBit <;> exact ⟨le_rfl, le_rfl⟩
  | true =>
    cases stickyBit with
    | false =>
      -- In the middle between two, the even one is taken.
      have htie : mantissa + mantissa % 2 ≤ mantissa + 1 := by omega
      exact ⟨Nat.le_add_right .., htie⟩
    | true => exact ⟨Nat.le_succ _, le_rfl⟩

/-- **Rounding is off by half a place** at most. -/
theorem roundedMantissa_cut_le (significand count : Nat) :
    significand / 2 ^ count ≤ (cut significand count).roundedMantissa ∧
      (cut significand count).roundedMantissa ≤ significand / 2 ^ count + 1 ∧
      2 * ((cut significand count).roundedMantissa * 2 ^ count) ≤ 2 * significand + 2 ^ count := by
  have hrounded := roundedMantissa_le (cut significand count)
  rw [mantissa_cut] at hrounded
  -- A cut of no bits is exact; any other one is a cut at the place before, and of one bit more.
  refine ⟨hrounded.1, hrounded.2.trans (by split <;> omega), ?_⟩
  generalize (cut significand count).roundedMantissa = rounded at *
  cases count with
  | zero =>
    have hexact : (cut significand 0).roundBit = false := rfl
    simp [hexact] at hrounded
    omega
  | succ count =>
    have hbit : (cut significand (count + 1)).roundBit =
        ((cut significand count).mantissa % 2 != 0) := rfl
    rw [hbit, mantissa_cut] at hrounded
    -- What is left before the last bit is cut off, and that bit.
    have hcut : significand / 2 ^ (count + 1) = significand / 2 ^ count / 2 := by
      rw [Nat.div_div_eq_div_mul, Nat.pow_succ]
    have hle : significand / 2 ^ count * 2 ^ count ≤ significand := Nat.div_mul_le_self _ _
    rw [hcut] at hrounded
    generalize significand / 2 ^ count = left at *
    have htwice : 2 * rounded ≤ left + 1 := by
      have := hrounded.2
      split at this <;> simp_all <;> omega
    calc 2 * (rounded * 2 ^ (count + 1)) = 2 * (2 * rounded * 2 ^ count) := by ring
      _ ≤ 2 * ((left + 1) * 2 ^ count) := by gcongr
      _ = 2 * (left * 2 ^ count) + 2 ^ (count + 1) := by ring
      _ ≤ 2 * significand + 2 ^ (count + 1) := by omega

/-! ### Rounding to 53 bits -/

/-- The exponent that a significand of more than 52 bits gets, far above the subnormal numbers. -/
theorem targetExponent_eq {significand : Nat} {exponent : Int} (hlog : 52 ≤ significand.log2)
    (hexponent : -1074 ≤ exponent) :
    Format.binary64.targetExponent (Float.Model.totalExponent significand exponent) =
      exponent + (significand.log2 - 52 : Nat) := by
  simp only [Format.targetExponent, Float.Model.totalExponent, Format.mantissaBits,
    Format.minExponent]
  norm_num
  omega

theorem shiftToTargetExponent_eq {significand : Nat} {exponent : Int}
    (hlog : 52 ≤ significand.log2) (hexponent : -1074 ≤ exponent) :
    shiftToTargetExponent .binary64 significand exponent .exact =
      (cut significand (significand.log2 - 52), exponent + (significand.log2 - 52 : Nat)) := by
  have hcount : (exponent + (significand.log2 - 52 : Nat) - exponent).toNat =
      significand.log2 - 52 := by omega
  rw [shiftToTargetExponent, targetExponent_eq hlog hexponent, shiftToExponent, hcount]
  rfl

/-- Where 53 bits are left, the rounded significand has 53 bits too, or is the power of two behind
them. -/
theorem two_pow_le_roundedMantissa {significand : Nat} (hlog : 52 ≤ significand.log2) :
    2 ^ 52 * 2 ^ (significand.log2 - 52) ≤ significand ∧
      2 ^ 52 ≤ (cut significand (significand.log2 - 52)).roundedMantissa ∧
      (cut significand (significand.log2 - 52)).roundedMantissa ≤ 2 ^ 53 := by
  have hne : significand ≠ 0 := by
    -- A zero has no bits.
    rintro rfl
    simp at hlog
  -- The bits behind the first 53 are as many as make the number lie between these bounds.
  have hwhole : 2 ^ 52 * 2 ^ (significand.log2 - 52) ≤ significand := by
    rw [← Nat.pow_add, Nat.add_sub_cancel' hlog]
    exact Nat.log2_self_le hne
  have hbelow : significand < 2 ^ 53 * 2 ^ (significand.log2 - 52) := by
    rw [← Nat.pow_add, show 53 + (significand.log2 - 52) = significand.log2 + 1 by omega]
    exact Nat.lt_log2_self
  obtain ⟨hlow, hhigh, -⟩ := roundedMantissa_cut_le significand (significand.log2 - 52)
  have hpow : 0 < 2 ^ (significand.log2 - 52) := Nat.two_pow_pos _
  have hleft := (Nat.le_div_iff_mul_le hpow).2 hwhole
  have hright := (Nat.div_lt_iff_lt_mul hpow).2 hbelow
  exact ⟨hwhole, hleft.trans hlow, hhigh.trans hright⟩

/-- **A number of more than 52 bits** is rounded to a significand of 53 bits, which is off by no
more than half of the last place that is kept. -/
theorem exists_round (sign : Sign) {significand : Nat} {exponent : Int}
    (hsize : 2 ^ 52 ≤ significand) (hexponent : -1074 ≤ exponent) :
    ∃ m up place hpos,
      roundWithAccuracy .binary64 sign significand exponent .exact =
        .finite sign m (exponent + (up : Nat)) hpos ∧
      2 ^ 52 ≤ m ∧ m < 2 ^ 53 ∧ 2 * (m * 2 ^ up) ≤ 2 * significand + 2 ^ place ∧
      2 ^ 52 * 2 ^ place ≤ significand := by
  -- The significand is moved twice: by its own length, and by the length of what was rounded.
  have hlog : 52 ≤ significand.log2 := (Nat.le_log2 (by omega)).2 hsize
  have hfirst := shiftToTargetExponent_eq hlog hexponent
  obtain ⟨hwhole, hlow, hhigh⟩ := two_pow_le_roundedMantissa hlog
  generalize significand.log2 - 52 = count at *
  obtain ⟨-, -, hclose⟩ := roundedMantissa_cut_le significand count
  rw [roundWithAccuracy, hfirst]
  dsimp only
  generalize (cut significand count).roundedMantissa = rounded at *
  have hrounded : 52 ≤ rounded.log2 := (Nat.le_log2 (by omega)).2 hlow
  rw [shiftToTargetExponent_eq hrounded (by omega)]
  dsimp only
  simp only [mantissa_cut]
  rcases Nat.lt_or_ge rounded (2 ^ 53) with hlt | hge
  · -- The significand still has 53 bits.
    have hzero : rounded.log2 - 52 = 0 := by
      have := (Nat.log2_lt (by omega)).2 hlt
      omega
    have hpos : rounded ≠ 0 := by omega
    refine ⟨rounded, count, count, by omega, ?_, hlow, hlt, hclose, hwhole⟩
    simp [hzero, hpos]
  · -- It was rounded up to a power of two and loses one bit more.
    obtain rfl : rounded = 2 ^ 53 := by omega
    refine ⟨2 ^ 52, count + 1, count, by decide, ?_, le_rfl, by decide, ?_, hwhole⟩
    · rw [Nat.log2_two_pow]
      norm_num
      omega
    · rw [Nat.pow_succ 2 count]
      omega

/-! ### Floats that are no small numbers -/

/-- A float that is a number with a significand of 53 bits and no smaller exponent than some one,
and that lies no further from zero than a bound. -/
def IsWithin (x : Float) (least : Int) (bound : ℚ) : Prop :=
  ∃ sign m e hpos, x.toModel.unpack = .finite sign m e hpos ∧ 2 ^ 52 ≤ m ∧ m < 2 ^ 53 ∧
    least ≤ e ∧ (m : ℚ) * 2 ^ e ≤ bound

theorem IsWithin.of_le {x : Float} {least least' : Int} {bound : ℚ} (h : IsWithin x least bound)
    (hle : least' ≤ least) : IsWithin x least' bound := by
  obtain ⟨sign, m, e, hpos, hunpack, hlow, hhigh, he, hvalue⟩ := h
  exact ⟨sign, m, e, hpos, hunpack, hlow, hhigh, hle.trans he, hvalue⟩

theorem IsWithin.isInf {x : Float} {least : Int} {bound : ℚ} (h : IsWithin x least bound) :
    x.isInf = false := by
  obtain ⟨sign, m, e, hpos, hunpack, -⟩ := h
  have hinf : x.toModel.unpack.isInf = false := by rw [hunpack]; rfl
  exact hinf

/-- The least magnitude that is rounded to infinity: half a place beyond the greatest finite
number. -/
def overflow : ℚ := (2 ^ 54 - 1) * 2 ^ (970 : ℤ)

/-- The fields of a packed number are its exponent, moved to be positive, and its significand
without the first bit, which is always set. -/
theorem pack_eq (sign : Sign) {m field : Nat} (hpos : 0 < m) (hlog : m.log2 = 52)
    (hfield : field < 2047) :
    Float.Model.UnpackedFloat.pack .binary64 (.finite sign m ((field : Int) - 1075) hpos) =
      packComponents .binary64 sign (BitVec.ofNat 11 field) (BitVec.ofNat 52 m) := by
  -- The field is the exponent with its bias, and is neither the greatest nor the least one.
  have hbiased : ((field : Int) - 1075 + Format.binary64.exponentBias +
      Format.binary64.mantissaBitsWithoutImplicit).toNat = field := by
    simp [Format.exponentBias]
    omega
  have hfits : ¬2 ^ Format.binary64.exponentBits ≤ field + 1 := by
    norm_num
    omega
  have hnormal : m.log2 + 1 = Format.binary64.mantissaBits := by
    rw [hlog]
    rfl
  simp only [Float.Model.UnpackedFloat.pack, hbiased, if_neg hfits, if_pos hnormal]

/-- **A number whose fields fit** is packed and unpacked. -/
theorem unpack_pack (sign : Sign) {m : Nat} {e : Int} (hpos : 0 < m) (hlow : 2 ^ 52 ≤ m)
    (hhigh : m < 2 ^ 53) (hsmall : -1074 ≤ e) (hgreat : e ≤ 971) :
    (Float.Model.pack (.finite sign m e hpos)).unpack = .finite sign m e hpos := by
  -- A normal number has its first bit at place 52, which is the bit that is not stored.
  have hlog : m.log2 = 52 := (Nat.log2_eq_iff (by omega)).2 ⟨hlow, hhigh⟩
  obtain ⟨field, hnormal, hfits, rfl⟩ : ∃ field : Nat, 0 < field ∧ field < 2047 ∧
      e = (field : Int) - 1075 := ⟨(e + 1075).toNat, by omega, by omega, by omega⟩
  have hunpack : (Float.Model.pack (.finite sign m ((field : Int) - 1075) hpos)).unpack =
      unpack .binary64
        (packComponents .binary64 sign (BitVec.ofNat 11 field) (BitVec.ofNat 52 m)) := by
    rw [← pack_eq sign hpos hlog hfits]
    rfl
  have hfield : (BitVec.ofNat 11 field).toNat = field := by
    rw [BitVec.toNat_ofNat, Nat.mod_eq_of_lt (by omega)]
  -- The two exponents that mean something else are out of the way.
  have hnotGreatest : BitVec.ofNat 11 field ≠ -1#11 := fun h => by
    have := hfield ▸ congrArg BitVec.toNat h
    simp at this
    omega
  have hnotLeast : BitVec.ofNat 11 field ≠ 0#11 := fun h => by
    have := hfield ▸ congrArg BitVec.toNat h
    simp at this
    omega
  -- The bit that is not stored is put back in front of the others.
  have hmantissa : (1#1 ++ BitVec.ofNat 52 m).toNat = m := by
    rw [BitVec.toNat_append, BitVec.toNat_ofNat, ← Nat.shiftLeft_add_eq_or_of_lt (by omega)]
    simp [Nat.shiftLeft_eq]
    omega
  rw [hunpack, unpack]
  simp only [unpackExponent_packComponents, unpackMantissa_packComponents,
    unpackSign_packComponents, Sign.ofBitVec_toBitVec]
  rw [if_neg hnotGreatest, if_neg hnotLeast, Float.Model.UnpackedFloat.finite.injEq]
  exact ⟨rfl, hmantissa, by rw [hfield]; rfl⟩

/-- The numbers beyond the format start one unit above the overflow. -/
theorem overflow_add_le {e : Int} (h : 972 ≤ e) :
    overflow + 2 ^ (970 : ℤ) ≤ 2 ^ 52 * 2 ^ e := by
  have hends : (2 : ℚ) ^ 52 * 2 ^ (972 : ℤ) = 2 ^ 54 * 2 ^ (970 : ℤ) := by
    rw [show (972 : ℤ) = 2 + 970 by rfl, zpow_add₀ two_ne_zero, ← mul_assoc]
    norm_num
  have hbeyond : (2 : ℚ) ^ (972 : ℤ) ≤ 2 ^ e := zpow_le_zpow_right₀ one_le_two h
  rw [overflow]
  generalize (2 : ℚ) ^ (970 : ℤ) = unit at *
  linarith

/-- **A number below the overflow keeps its exponent in the format**: rounding moves it by half a
place, and where that carried it beyond the format, the place and the number would be beyond it. -/
theorem le_of_lt_overflow {value : ℚ} {m : Nat} {e place : Int} (hlow : 2 ^ 52 ≤ m)
    (hclose : (m : ℚ) * 2 ^ e ≤ value + 2 ^ place / 2) (hplace : 2 ^ 52 * 2 ^ place ≤ value)
    (hfits : value < overflow) : e ≤ 971 := by
  by_contra hgreat
  -- Beyond 971 so much must have been cut off that the value itself is beyond the format.
  have hunit : (0 : ℚ) < 2 ^ (970 : ℤ) := by positivity
  have hrounded : overflow + 2 ^ (970 : ℤ) ≤ (m : ℚ) * 2 ^ e :=
    calc overflow + 2 ^ (970 : ℤ) ≤ 2 ^ 52 * 2 ^ e := overflow_add_le (by omega)
      _ ≤ (m : ℚ) * 2 ^ e := by
        gcongr
        exact_mod_cast hlow
  have htwice : (2 : ℚ) ^ (971 : ℤ) = 2 * 2 ^ (970 : ℤ) := by
    rw [show (971 : ℤ) = 1 + 970 by rfl, zpow_add₀ two_ne_zero, zpow_one]
  have hhalf : (2 : ℚ) ^ (971 : ℤ) < 2 ^ place := by
    rw [htwice]
    generalize (2 : ℚ) ^ (970 : ℤ) = unit at *
    linarith
  have hbeyond := (zpow_lt_zpow_iff_right₀ one_lt_two).1 hhalf
  have hvalue : overflow + 2 ^ (970 : ℤ) ≤ value := (overflow_add_le (by omega)).trans hplace
  exact (hfits.trans ((lt_add_of_pos_right overflow hunit).trans_le hvalue)).false

/-- How much a number can grow when it is rounded. -/
def growth : ℚ := 1 + 1 / 2 ^ 53

theorem one_le_growth : 1 ≤ growth := by
  norm_num [growth]

/-- **What a rounded number is packed as**, where it is not too large. -/
theorem isWithin_pack (sign : Sign) {significand : Nat} {exponent : Int} {bound : ℚ}
    (hsize : 2 ^ 52 ≤ significand) (hexponent : -1074 ≤ exponent)
    (hbound : (significand : ℚ) * 2 ^ exponent ≤ bound) (hfits : bound < overflow) :
    IsWithin (.ofModel (.pack (roundWithAccuracy .binary64 sign significand exponent .exact)))
      exponent (bound * growth) := by
  obtain ⟨m, up, place, hpos, hround, hlow, hhigh, hclose, hplace⟩ :=
    exists_round sign hsize hexponent
  -- Both facts on the significand, at the scale of the number.
  have hscale : (0 : ℚ) < 2 ^ exponent := by positivity
  have hclose' : (m : ℚ) * 2 ^ (exponent + up) ≤
      significand * 2 ^ exponent + 2 ^ (exponent + place) / 2 := by
    have h : (2 * (m * 2 ^ up) : ℚ) ≤ 2 * significand + 2 ^ place := by exact_mod_cast hclose
    rw [zpow_add₀ two_ne_zero, zpow_add₀ two_ne_zero, zpow_natCast, zpow_natCast]
    nlinarith
  have hplace' : (2 : ℚ) ^ 52 * 2 ^ (exponent + place) ≤ significand * 2 ^ exponent := by
    have h : (2 ^ 52 * 2 ^ place : ℚ) ≤ significand := by exact_mod_cast hplace
    rw [zpow_add₀ two_ne_zero, zpow_natCast]
    nlinarith
  -- Rounding stays within the exponents of the format, so the number comes back as it was packed.
  have hgreat : exponent + up ≤ 971 :=
    le_of_lt_overflow hlow hclose' hplace' (hbound.trans_lt hfits)
  have hunpack := unpack_pack sign hpos hlow hhigh (by omega) hgreat
  refine ⟨sign, m, exponent + up, hpos, ?_, hlow, hhigh, by omega, ?_⟩
  · rw [hround]
    exact hunpack
  · rw [growth]
    linarith

/-! ### Products -/

/-- **A product that stays below the overflow** is a number. -/
theorem IsWithin.mul {x y : Float} {least least' : Int} {bound bound' : ℚ}
    (hx : IsWithin x least bound) (hy : IsWithin y least' bound') (hleast : -1074 ≤ least + least')
    (hfits : bound * bound' < overflow) :
    IsWithin (x * y) (least + least') (bound * bound' * growth) := by
  obtain ⟨sign, m, e, hpos, hunpack, hlow, -, he, hvalue⟩ := hx
  obtain ⟨sign', m', e', hpos', hunpack', hlow', -, he', hvalue'⟩ := hy
  have hproduct : x * y = .ofModel (.pack
      (roundWithAccuracy .binary64 (sign * sign') (m * m') (e + e') .exact)) := by
    have hmul : x * y = .ofModel (.pack
        (Float.Model.UnpackedFloat.mul .binary64 x.toModel.unpack y.toModel.unpack)) := rfl
    rw [hmul, hunpack, hunpack']
    rfl
  -- The exact product is within both bounds, and so it is rounded only once.
  have hbound : ((m * m' : Nat) : ℚ) * 2 ^ (e + e') ≤ bound * bound' := by
    rw [Nat.cast_mul, zpow_add₀ two_ne_zero, mul_mul_mul_comm]
    exact mul_le_mul hvalue hvalue' (by positivity) (le_trans (by positivity) hvalue)
  rw [hproduct]
  exact (isWithin_pack _ (hlow.trans (Nat.le_mul_of_pos_right m hpos')) (by omega) hbound
    hfits).of_le (by omega)

/-! ### Whole numbers and powers of ten -/

/-- A whole number is moved up to 53 bits before it is rounded. -/
theorem ofNat_eq {n : Nat} (hn : 0 < n) :
    Float.Model.UnpackedFloat.ofNat .binary64 n =
      roundWithAccuracy .binary64 .positive (n * 2 ^ (52 - n.log2)) (-(52 - n.log2 : Nat)) .exact := by
  -- A number is moved to the left until it fills the significand, which is exact.
  have hsign : compare (n : Int) 0 = .gt := by
    rw [Int.compare_eq_gt]
    exact_mod_cast hn
  have hcount : (-Format.binary64.targetExponent (Float.Model.totalExponent n 0)).toNat =
      52 - n.log2 := by
    simp only [Format.targetExponent, Float.Model.totalExponent, Format.mantissaBits,
      Format.minExponent]
    norm_num
    omega
  simp only [Float.Model.UnpackedFloat.ofNat, ofInt, Float.Model.UnpackedFloat.normalize, hsign,
    Float.Model.UnpackedFloat.round, Int.toNat_natCast, decreaseExponent, hcount, Nat.shiftLeft_eq,
    Int.zero_sub]

theorem two_pow_le_moved {n : Nat} (hn : 0 < n) : 2 ^ 52 ≤ n * 2 ^ (52 - n.log2) :=
  calc 2 ^ 52 ≤ 2 ^ (n.log2 + (52 - n.log2)) := Nat.pow_le_pow_right two_pos (by omega)
    _ = 2 ^ n.log2 * 2 ^ (52 - n.log2) := Nat.pow_add ..
    _ ≤ n * 2 ^ (52 - n.log2) := Nat.mul_le_mul_right _ (Nat.log2_self_le (by omega))

/-- Powers of ten up to the last one before the overflow. -/
theorem ten_pow_lt_overflow {n : Nat} (h : n ≤ 308) : (10 : ℚ) ^ n < overflow := by
  have hlast : ((10 ^ 308 + 2 ^ 970 : Nat) : ℚ) < (2 ^ 54 * 2 ^ 970 : Nat) :=
    Nat.cast_lt.2 (by decide +kernel)
  have hle : (10 : ℚ) ^ n ≤ 10 ^ 308 := pow_le_pow_right₀ (by norm_num) h
  simp only [Nat.cast_add, Nat.cast_mul, Nat.cast_pow, Nat.cast_ofNat] at hlast
  rw [overflow, zpow_ofNat]
  generalize (2 : ℚ) ^ 970 = unit at *
  generalize (10 : ℚ) ^ 308 = last at *
  linarith

/-- The power of ten behind the last one is beyond the overflow. -/
theorem overflow_lt_ten_pow {n : Nat} (h : 309 ≤ n) : overflow < (10 : ℚ) ^ n := by
  have hfirst : ((2 ^ 54 * 2 ^ 970 : Nat) : ℚ) < (10 ^ 309 + 2 ^ 970 : Nat) :=
    Nat.cast_lt.2 (by decide +kernel)
  have hle : (10 : ℚ) ^ 309 ≤ 10 ^ n := pow_le_pow_right₀ (by norm_num) h
  simp only [Nat.cast_add, Nat.cast_mul, Nat.cast_pow, Nat.cast_ofNat] at hfirst
  rw [overflow, zpow_ofNat]
  generalize (2 : ℚ) ^ 970 = unit at *
  generalize (10 : ℚ) ^ 309 = first at *
  linarith

theorem isWithin_toFloat {n : UInt64} (hn : n ≠ 0) :
    IsWithin n.toFloat (-52) (n.toNat * growth) := by
  have hpos : 0 < n.toNat := Nat.pos_iff_ne_zero.2 fun h => hn (UInt64.toNat_inj.1 h)
  have hfloat : n.toFloat = .ofModel (.pack (roundWithAccuracy .binary64 .positive
      (n.toNat * 2 ^ (52 - n.toNat.log2)) (-(52 - n.toNat.log2 : Nat)) .exact)) := by
    rw [← ofNat_eq hpos]
    rfl
  -- What the move multiplies by, the exponent takes away.
  have hvalue : ((n.toNat * 2 ^ (52 - n.toNat.log2) : Nat) : ℚ) *
      2 ^ (-(52 - n.toNat.log2 : Nat) : Int) = n.toNat := by
    rw [Nat.cast_mul, Nat.cast_pow, zpow_neg, zpow_natCast, mul_assoc]
    simp
  have hfits : (n.toNat : ℚ) < overflow := by
    have hlt : (n.toNat : ℚ) ≤ 10 ^ 20 := by
      exact_mod_cast (n.toNat_lt.trans (by decide)).le
    exact hlt.trans_lt (ten_pow_lt_overflow (by decide))
  rw [hfloat]
  exact (isWithin_pack _ (two_pow_le_moved hpos) (by omega) hvalue.le hfits).of_le (by omega)

/-- The powers of ten that are looked up in a table are those that are rounded. -/
theorem ofScientific_one_eq (n : Nat) :
    Float.ofScientific 1 false n = .ofModel (.ofScientific 1 n) := by
  have htable : ∀ n < 23, Float.ofScientific 1 false n = .ofModel (.ofScientific 1 n) := by
    decide +kernel
  rcases Nat.lt_or_ge n 23 with hlt | hge
  · exact htable n hlt
  · rw [Float.ofScientific, dif_neg (by omega)]
    rfl

theorem isWithin_ten {n : Nat} (h : n ≤ 308) :
    IsWithin (Float.ofScientific 1 false n) (-53) (10 ^ n * growth) := by
  have hfloat : Float.ofScientific 1 false n = .ofModel (.pack
      (roundWithAccuracy .binary64 .positive (2 ^ 53 * 10 ^ n) (-53) .exact)) := by
    rw [ofScientific_one_eq, Float.Model.ofScientific, Float.Model.UnpackedFloat.ofScientific]
    -- The power is neither too great nor too small to be taken as it is, and it is positive.
    rw [dif_neg (by decide), if_neg (by norm_num; omega), if_neg (by norm_num; omega),
      if_pos (Int.natCast_nonneg n)]
    rfl
  have hvalue : ((2 ^ 53 * 10 ^ n : Nat) : ℚ) * 2 ^ (-53 : Int) = 10 ^ n := by
    rw [Nat.cast_mul, Nat.cast_pow, Nat.cast_pow, mul_right_comm]
    norm_num
  rw [hfloat]
  exact isWithin_pack _ (Nat.le_mul_of_pos_right _ (by positivity) |>.trans' (by decide)) (by decide)
    hvalue.le (ten_pow_lt_overflow h)

/-- **A whole number times a power of ten** is no infinity where the two roundings of the factors
leave the product below the overflow. -/
theorem isInf_mul_ten {n : UInt64} {power : Nat} (hpower : power ≤ 308)
    (hfits : (n.toNat : ℚ) * 10 ^ power * growth ^ 2 < overflow) :
    (n.toFloat * Float.ofScientific 1 false power).isInf = false := by
  have hten := isWithin_ten hpower
  -- Zero is no normal number, so it has a case of its own.
  by_cases hn : n = 0
  · obtain ⟨sign, m, e, hpos, hunpack, -⟩ := hten
    subst hn
    have hzero : (0 : UInt64).toFloat.toModel.unpack = .zero .positive := rfl
    have hproduct : (0 : UInt64).toFloat * Float.ofScientific 1 false power =
        .ofModel (.pack (.zero (.positive * sign))) := by
      have hmul : (0 : UInt64).toFloat * Float.ofScientific 1 false power = .ofModel (.pack
          (Float.Model.UnpackedFloat.mul .binary64 (0 : UInt64).toFloat.toModel.unpack
            (Float.ofScientific 1 false power).toModel.unpack)) := rfl
      rw [hmul, hzero, hunpack]
      rfl
    rw [hproduct]
    cases sign <;> rfl
  · refine ((isWithin_toFloat hn).mul hten (by decide) (lt_of_eq_of_lt ?_ hfits)).isInf
    ring

end CodeAssist.Decimal
