import CodeAssist.Decimal.Shortest
import CodeAssist.Proofs.Decimal.Rounding

/-!
# The magnitude of what is written

The digits that are written for a floating-point number lie no further above it than half of its
last place (`value_shortest_le`): either they were found in the interval of what rounds to the
number, or they are the number itself.
-/

namespace CodeAssist.Decimal

/-- The value of digits. -/
def Digits.value (d : Digits) : ℚ :=
  d.coefficient * 10 ^ d.exponent

/-- A power with a negative exponent is the quotient of two powers without. -/
theorem zpow_mul_toNat {a : ℚ} (ha : a ≠ 0) (z : Int) :
    a ^ z * (a ^ (-z).toNat) = a ^ z.toNat := by
  rw [← zpow_natCast, ← zpow_natCast, ← zpow_add₀ ha]
  congr 1
  omega

namespace Binary

variable (b : Binary)

/-- The end of the interval of the reals that round to a number. -/
def upper : ℚ :=
  (b.significand + 1 / 2) * 2 ^ b.exponent

/-- **A decimal that rounds to a number** lies no further above it than the end of the interval. -/
theorem value_le_of_readsBack {coefficient : Nat} {grid : Int}
    (h : b.readsBack coefficient grid = true) : (coefficient : ℚ) * 10 ^ grid ≤ b.upper := by
  -- The upper end belongs to the interval only if the significand is even.
  have hpoint : coefficient * b.gridFactor grid ≤ b.upperEnd * b.quarterFactor grid := by
    simp only [readsBack] at h
    split at h
    · simp only [Bool.and_eq_true, decide_eq_true_eq] at h
      exact h.2
    · simp only [Bool.and_eq_true, decide_eq_true_eq] at h
      exact h.2.le
  have hcast : (coefficient : ℚ) * (10 ^ grid.toNat * 2 ^ (2 - b.exponent).toNat) ≤
      (4 * b.significand + 2) * (10 ^ (-grid).toNat * 2 ^ (b.exponent - 2).toNat) := by
    have := (Nat.cast_le (α := ℚ)).2 hpoint
    simpa [gridFactor, quarterFactor, upperEnd] using this
  -- Both sides are what they are at the scale of the number, times two powers.
  have hten := zpow_mul_toNat (by norm_num : (10 : ℚ) ≠ 0) grid
  have htwo := zpow_mul_toNat (by norm_num : (2 : ℚ) ≠ 0) (b.exponent - 2)
  rw [neg_sub] at htwo
  have hscale : (0 : ℚ) < 10 ^ (-grid).toNat * 2 ^ (2 - b.exponent).toNat := by positivity
  refine le_of_mul_le_mul_right ?_ hscale
  have hquarter : (2 : ℚ) ^ b.exponent = 2 ^ (b.exponent - 2) * 4 := by
    rw [zpow_sub₀ two_ne_zero]
    norm_num
  calc (coefficient : ℚ) * 10 ^ grid * (10 ^ (-grid).toNat * 2 ^ (2 - b.exponent).toNat)
      = coefficient * (10 ^ grid.toNat * 2 ^ (2 - b.exponent).toNat) := by rw [← hten]; ring
    _ ≤ (4 * b.significand + 2) * (10 ^ (-grid).toNat * 2 ^ (b.exponent - 2).toNat) := hcast
    _ = b.upper * (10 ^ (-grid).toNat * 2 ^ (2 - b.exponent).toNat) := by
      rw [upper, hquarter, ← htwo]
      ring

theorem readsBack_of_onGrid? {tie : Tie} {grid : Int} {coefficient : Nat}
    (h : b.onGrid? tie grid = some coefficient) : b.readsBack coefficient grid = true := by
  unfold onGrid? at h
  grind

/-- What the search finds rounds to the number. -/
theorem value_le_of_searchGrids {tie : Tie} {scale : Int} {left digits : Nat} {d : Digits}
    (h : b.searchGrids tie scale left digits = some d) : d.value ≤ b.upper := by
  -- The grids are tried one after the other, and any of them may have the answer.
  induction left generalizing digits with
  | zero => cases h
  | succ left ih =>
    unfold searchGrids at h
    cases hpoint : b.onGrid? tie (scale - digits) with
    | some coefficient =>
      rw [hpoint] at h
      cases h
      exact b.value_le_of_readsBack (b.readsBack_of_onGrid? hpoint)
    | none =>
      rw [hpoint] at h
      exact ih h

end Binary

/-- Moving zeros into the exponent does not change the value. -/
theorem value_stripZeros (limit : Nat) (d : Digits) : (stripZeros limit d).value = d.value := by
  induction limit generalizing d with
  | zero => rfl
  | succ limit ih =>
    unfold stripZeros
    split
    -- A zero is taken off the coefficient and put into the exponent.
    · rename_i hzeros
      have hten : d.coefficient % 10 = 0 := by
        simpa using And.left (by simpa using hzeros)
      have hcast : (d.coefficient : ℚ) = (d.coefficient / 10 : Nat) * 10 := by
        exact_mod_cast (Nat.div_mul_cancel (Nat.dvd_of_mod_eq_zero hten)).symm
      rw [ih, Digits.value, Digits.value, hcast, zpow_add₀ (by norm_num), zpow_one]
      ring
    · rfl

/-- All digits of a number have its value. -/
theorem value_exact (significand : Nat) (exponent : Int) :
    Digits.value ⟨significand * Nat.pow 2 exponent.toNat * Nat.pow 5 (-exponent).toNat,
      min exponent 0⟩ = significand * 2 ^ exponent := by
  have hcast : Digits.value ⟨significand * Nat.pow 2 exponent.toNat *
      Nat.pow 5 (-exponent).toNat, min exponent 0⟩ =
        significand * 2 ^ exponent.toNat * 5 ^ (-exponent).toNat * 10 ^ min exponent 0 := by
    simp [Digits.value]
  have htwo := zpow_mul_toNat (two_ne_zero' ℚ) exponent
  rw [hcast]
  rcases Int.le_total exponent 0 with hneg | hpos
  · -- Each power of two is one of ten and one of five.
    have hfive := zpow_mul_toNat (by norm_num : (5 : ℚ) ≠ 0) exponent
    rw [Int.toNat_of_nonpos hneg, pow_zero] at hfive htwo ⊢
    rw [min_eq_left hneg, show (10 : ℚ) = 2 * 5 by norm_num, mul_zpow]
    linear_combination (significand : ℚ) * 2 ^ exponent * hfive
  -- Without a fraction the exponent of ten is zero, and nothing is left of the five.
  · rw [Int.toNat_of_nonpos (by omega : -exponent ≤ 0), pow_zero, mul_one] at htwo
    rw [min_eq_right hpos, Int.toNat_of_nonpos (by omega : -exponent ≤ 0), htwo]
    simp

/-- **The digits of a number** lie no further above it than half of its last place. -/
theorem value_shortest_le (tie : Tie) (x : Double) :
    (shortest tie x).value ≤ (Binary.ofDouble x).upper := by
  have hunit : (0 : ℚ) < 2 ^ (Binary.ofDouble x).exponent := by positivity
  unfold shortest
  by_cases hzero : (Binary.ofDouble x).significand = 0
  · rw [if_pos hzero]
    simp [Digits.value, Binary.upper, hzero]
    positivity
  rw [if_neg hzero, value_stripZeros]
  cases hfound : (Binary.ofDouble x).searchGrids tie (Binary.ofDouble x).scale 17 1 with
  | some d => exact (Binary.ofDouble x).value_le_of_searchGrids hfound
  -- Written out, the number is its own value, which is the middle of the interval.
  | none =>
    refine (value_exact _ _).trans_le ?_
    rw [Binary.upper]
    gcongr
    norm_num

/-! ### Finite numbers -/

namespace Double

/-- A number that is neither an infinity nor no number. -/
def IsFinite (x : Double) : Prop :=
  x.isNaN = false ∧ x.isInf = false

instance (x : Double) : Decidable x.IsFinite :=
  inferInstanceAs (Decidable (x.isNaN = false ∧ x.isInf = false))

open Float.Model (Format)
open Float.Model.UnpackedFloat

/-- The greatest exponent field makes an infinity or no number. -/
theorem unpack_of_greatest {bits : BitVec 64}
    (h : @unpackExponent Format.binary64 bits = -1#11) :
    (∃ sign, unpack .binary64 bits = .infinity sign) ∨ unpack .binary64 bits = .notANumber := by
  rw [unpack]
  dsimp only
  rw [if_pos h]
  split
  · exact .inl ⟨_, rfl⟩
  · exact .inr rfl

/-- **The exponent field** of a finite number is not the greatest one. -/
theorem IsFinite.field_lt {x : Double} (h : x.IsFinite) :
    x.bits.toNat / 2 ^ 52 % 2 ^ 11 < 2047 := by
  -- With all bits of the exponent set, the number is infinite or none at all.
  by_contra hfield
  have hexponent : @unpackExponent Format.binary64 x.bits.toBitVec = -1#11 := by
    refine BitVec.eq_of_toNat_eq ?_
    simp [unpackExponent, Nat.shiftRight_eq_div_pow]
    omega
  have hmodel : x.toFloat.toModel = .pack (unpack .binary64 x.bits.toBitVec) := rfl
  rcases unpack_of_greatest hexponent with ⟨sign, hinfinity⟩ | hnotANumber
  · have hinf : (Float.Model.pack (.infinity sign)).isInf = true := by cases sign <;> rfl
    have hfinite := h.2
    rw [isInf, Float.isInf, hmodel, hinfinity, hinf] at hfinite
    cases hfinite
  · have hnan : (Float.Model.pack .notANumber).isNaN = true := rfl
    have hfinite := h.1
    rw [isNaN, Float.isNaN, hmodel, hnotANumber, hnan] at hfinite
    cases hfinite

end Double

namespace Binary

theorem significand_ofDouble_lt (x : Double) : (ofDouble x).significand < 2 ^ 53 := by
  simp only [ofDouble, Nat.pow_eq]
  split <;> (simp; omega)

theorem exponent_ofDouble_le {x : Double} (h : x.IsFinite) : (ofDouble x).exponent ≤ 971 := by
  have hfield := h.field_lt
  simp only [ofDouble, Nat.pow_eq]
  split
  · -- a subnormal number, which has the least exponent
    simp
  · simp
    omega

/-- Whether a number is one of the three greatest. -/
def isGreatest (x : Double) : Bool :=
  (ofDouble x).exponent = 971 && 2 ^ 53 - 3 ≤ (ofDouble x).significand

/-- **All finite numbers but the three greatest** are so far below the overflow that their digits
may grow by two roundings. -/
theorem upper_mul_growth_lt {x : Double} (h : x.IsFinite) (hgreatest : isGreatest x = false) :
    (ofDouble x).upper * growth ^ 2 < overflow := by
  have hexponent := exponent_ofDouble_le h
  have hsignificand := significand_ofDouble_lt x
  simp only [isGreatest, Bool.and_eq_false_iff, decide_eq_false_iff_not, Nat.not_le] at hgreatest
  -- The margin left by the growth is smaller than the one left by the significand.
  have hroom : (2 ^ 54 - 7 : ℚ) * growth ^ 2 < 2 ^ 54 - 1 := by norm_num [growth]
  have hunit : (0 : ℚ) < 2 ^ (970 : ℤ) := by positivity
  have hbound : (ofDouble x).upper ≤ (2 ^ 54 - 7) * 2 ^ (970 : ℤ) := by
    rw [upper]
    generalize (ofDouble x).exponent = exponent at *
    generalize (ofDouble x).significand = significand at *
    -- At the greatest exponent the significand decides, below it the exponent does.
    rcases eq_or_lt_of_le hexponent with rfl | hlt
    · have hle : (significand : ℚ) + 4 ≤ 2 ^ 53 := by
        exact_mod_cast (by omega : significand + 4 ≤ 2 ^ 53)
      rw [show (971 : ℤ) = 1 + 970 by rfl, zpow_add₀ two_ne_zero, zpow_one, ← mul_assoc]
      gcongr
      linarith
    · have hle : (significand : ℚ) + 1 ≤ 2 ^ 53 := by exact_mod_cast hsignificand
      have hpower : (2 : ℚ) ^ exponent ≤ 2 ^ (970 : ℤ) := zpow_le_zpow_right₀ one_le_two (by omega)
      exact mul_le_mul (by linarith) hpower (by positivity) (by norm_num)
  calc (ofDouble x).upper * growth ^ 2 ≤ (2 ^ 54 - 7) * 2 ^ (970 : ℤ) * growth ^ 2 := by gcongr
    _ = (2 ^ 54 - 7) * growth ^ 2 * 2 ^ (970 : ℤ) := by ring
    _ < (2 ^ 54 - 1) * 2 ^ (970 : ℤ) := by gcongr
    _ = overflow := rfl

end Binary

end CodeAssist.Decimal
