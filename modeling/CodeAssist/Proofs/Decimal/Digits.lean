import CodeAssist.Decimal.Layout
import Mathlib.Tactic.Common

/-!
# The digits that are written

What a reader of a written number relies on: a number other than zero starts with a digit other
than zero (`head?_digitsOf_ne`), and the digits that stand for a floating-point number make zero
only for a number that is zero (`Digits.IsCanonical`, `isCanonical_shortest`). The latter is why no
row of zeros is ever written as a whole part: of all numbers only zero rounds to zero, because the
interval of any other one lies above zero.
-/

namespace CodeAssist.Decimal

/-! ### Digits of natural numbers -/

theorem isDigit_of_mem_digitsOf {n : Nat} {c : Char} (h : c ∈ Layout.digitsOf n) : c.isDigit :=
  Nat.isDigit_of_mem_toDigits (by decide) (by decide) h

theorem digitsOf_ne_nil (n : Nat) : Layout.digitsOf n ≠ [] :=
  Nat.toDigits_ne_nil

@[simp] theorem digitsOf_zero : Layout.digitsOf 0 = ['0'] := rfl

/-- **The first digit** of a number other than zero is not zero. -/
theorem head?_digitsOf_ne {n : Nat} (hn : n ≠ 0) : (Layout.digitsOf n).head? ≠ some '0' := by
  induction n using Nat.strongRecOn with
  | _ n ih =>
    rcases Nat.lt_or_ge n 10 with hlt | hge
    · -- One digit, which is that of a number from one to nine.
      have hone : Layout.digitsOf n = [n.digitChar] := Nat.toDigits_of_lt_base hlt
      have hdigit : ∀ m < 10, m ≠ 0 → m.digitChar ≠ '0' := by decide
      rw [hone, List.head?_cons, Ne, Option.some.injEq]
      exact hdigit n hlt hn
    · -- The first digit is that of the tenth part.
      have hsplit : Layout.digitsOf n = Layout.digitsOf (n / 10) ++ [(n % 10).digitChar] :=
        Nat.toDigits_of_base_le (by decide) hge
      obtain ⟨first, others, htenth⟩ := List.exists_cons_of_ne_nil (digitsOf_ne_nil (n / 10))
      have hfirst : (Layout.digitsOf n).head? = (Layout.digitsOf (n / 10)).head? := by
        rw [hsplit, htenth, List.cons_append, List.head?_cons, List.head?_cons]
      exact hfirst ▸ ih (n / 10) (by omega) (by omega)

theorem eq_zero_of_head?_digitsOf {n : Nat} (h : (Layout.digitsOf n).head? = some '0') : n = 0 :=
  by_contra fun hn => head?_digitsOf_ne hn h

/-! ### Digits of floating-point numbers -/

/-- Digits that make zero only as `0 * 10 ^ 0`. -/
def Digits.IsCanonical (d : Digits) : Prop :=
  d.coefficient = 0 → d.exponent = 0

namespace Binary

variable {b : Binary}

/-- Zero rounds to no number but zero: the interval of any other one starts above zero. -/
theorem readsBack_zero (h : b.significand ≠ 0) (grid : Int) : b.readsBack 0 grid = false := by
  -- The lower end of the interval is above zero, and zero lies below it.
  have hend : 0 < b.lowerEnd := by
    unfold lowerEnd
    split <;> omega
  have hfactor : 0 < b.quarterFactor grid :=
    Nat.mul_pos (Nat.pow_pos (by decide)) (Nat.pow_pos (by decide))
  have hlow : 0 < b.lowerEnd * b.quarterFactor grid := Nat.mul_pos hend hfactor
  simp only [readsBack, Nat.zero_mul]
  split
  · simp only [Nat.le_zero, Nat.zero_le, decide_true, Bool.and_true, decide_eq_false_iff_not]
    omega
  · simp

/-- A point of a grid that is written is not zero. -/
theorem onGrid?_ne_zero (h : b.significand ≠ 0) {tie : Tie} {grid : Int} {coefficient : Nat}
    (hpoint : b.onGrid? tie grid = some coefficient) : coefficient ≠ 0 := by
  -- The lower of the two points was found to round to the number wherever it is written.
  have hlow : ∀ n, b.readsBack n grid = true → n ≠ 0 := by
    rintro n hn rfl
    simp [readsBack_zero h] at hn
  unfold onGrid? at hpoint
  grind

/-- The digits found on the first grid that has a point do not make zero. -/
theorem searchGrids_ne_zero (h : b.significand ≠ 0) {tie : Tie} {scale : Int}
    {left digits : Nat} {d : Digits} (hfound : b.searchGrids tie scale left digits = some d) :
    d.coefficient ≠ 0 := by
  -- One digit more is tried at each step, and the first grid with a point gives the answer.
  induction left generalizing digits with
  | zero => cases hfound
  | succ left ih =>
    unfold searchGrids at hfound
    cases hpoint : b.onGrid? tie (scale - digits) with
    | some coefficient =>
      rw [hpoint] at hfound
      cases hfound
      exact onGrid?_ne_zero h hpoint
    | none =>
      rw [hpoint] at hfound
      exact ih hfound

end Binary

/-- Moving zeros into the exponent does not make zero. -/
theorem stripZeros_ne_zero {limit : Nat} {d : Digits} (h : d.coefficient ≠ 0) :
    (stripZeros limit d).coefficient ≠ 0 := by
  induction limit generalizing d with
  | zero => exact h
  | succ limit ih =>
    unfold stripZeros
    split
    · rename_i hzeros
      -- The coefficient ends in a zero that can go, so it has a tenth part.
      have hten : d.coefficient % 10 = 0 := by simpa using And.left (by simpa using hzeros)
      refine ih ?_
      change d.coefficient / 10 ≠ 0
      omega
    · exact h

/-- **The digits of a number** make zero only as `0 * 10 ^ 0`. -/
theorem isCanonical_shortest (tie : Tie) (d : Double) : (shortest tie d).IsCanonical := by
  intro hzero
  unfold shortest at hzero ⊢
  -- A zero has no digits to search for. Any other number is found on a grid or written out.
  by_cases hsignificand : (Binary.ofDouble d).significand = 0
  · simp [hsignificand]
  · rw [if_neg hsignificand] at hzero
    refine absurd hzero (stripZeros_ne_zero ?_)
    cases hfound : (Binary.ofDouble d).searchGrids tie (Binary.ofDouble d).scale 17 1 with
    | some found =>
      exact Binary.searchGrids_ne_zero hsignificand hfound
    | none =>
      -- All digits of the number: a product of powers and of the significand.
      have htwo (n : Nat) : Nat.pow 2 n ≠ 0 := Nat.ne_of_gt (Nat.pow_pos (by decide))
      have hfive (n : Nat) : Nat.pow 5 n ≠ 0 := Nat.ne_of_gt (Nat.pow_pos (by decide))
      exact Nat.mul_ne_zero (Nat.mul_ne_zero hsignificand (htwo _)) (hfive _)

end CodeAssist.Decimal
