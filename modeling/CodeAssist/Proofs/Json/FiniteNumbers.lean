import CodeAssist.Proofs.Decimal.Magnitude
import CodeAssist.Proofs.Json.Numerals

/-!
# Finite numbers are read as numbers

A finite floating-point number is written as a numeral with a point or an exponent, and what is read
there is a floating-point number (`Number.exists_reread_of_isFinite`), if not always the same one. What
could go wrong is that one of the two roundings, or both, take a great number beyond the format.
The digits that are read are no more than those that are written, which lie within half a place of
the number; so for all but the three greatest numbers there is room for two roundings, and the
greatest ones are tried.
-/

namespace CodeAssist.Json

open CodeAssist.Decimal (Digits Double Layout growth overflow shortest)

/-! ### Rows of digits and their numbers -/

theorem toNat_sub_le_of_isDigit {c : Char} (h : c.isDigit = true) : c.toNat - '0'.toNat ≤ 9 := by
  simp only [Char.isDigit, Bool.and_eq_true, decide_eq_true_eq] at h
  have hle : c.toNat ≤ '9'.toNat := h.2
  have hnine : '9'.toNat = 57 := rfl
  have hzero : '0'.toNat = 48 := rfl
  omega

theorem mul_pow_le_ofDigitChars (cs : List Char) (n : Nat) :
    n * 10 ^ cs.length ≤ Nat.ofDigitChars 10 cs n := by
  induction cs generalizing n with
  | nil => simp
  | cons c cs ih =>
    rw [Nat.ofDigitChars_cons, List.length_cons, Nat.pow_succ]
    refine le_trans ?_ (ih _)
    calc n * (10 ^ cs.length * 10) = 10 * n * 10 ^ cs.length := by ring
      _ ≤ (10 * n + (c.toNat - '0'.toNat)) * 10 ^ cs.length := by gcongr; omega

/-- A row of digits makes a number of no more places. -/
theorem ofDigitChars_lt {cs : List Char} (h : ∀ c ∈ cs, c.isDigit = true) (n : Nat) :
    Nat.ofDigitChars 10 cs n < (n + 1) * 10 ^ cs.length := by
  induction cs generalizing n with
  | nil => simp
  | cons c cs ih =>
    have hdigit := toNat_sub_le_of_isDigit (h c List.mem_cons_self)
    rw [Nat.ofDigitChars_cons, List.length_cons, Nat.pow_succ]
    refine lt_of_lt_of_le (ih (fun c hc => h c (List.mem_cons_of_mem _ hc)) _) ?_
    calc (10 * n + (c.toNat - '0'.toNat) + 1) * 10 ^ cs.length
        ≤ (10 * (n + 1)) * 10 ^ cs.length := by gcongr; omega
      _ = (n + 1) * (10 ^ cs.length * 10) := by ring

/-- **Digits that are taken up** make no greater number than all the digits do. -/
theorem absorb_le {significand last count : Nat} {cs : List Char}
    (h : absorb significand cs = (last, count)) (hsignificand : significand ≤ maxNatural) :
    last ≤ maxNatural ∧ count ≤ cs.length ∧
      last * 10 ^ (cs.length - count) ≤ Nat.ofDigitChars 10 cs significand := by
  -- What is taken up of the digits is carried along, and never grows beyond the greatest number.
  induction cs generalizing significand last count with
  | nil =>
    cases h
    exact ⟨hsignificand, le_rfl, by simp⟩
  | cons c cs ih =>
    rw [absorb] at h
    -- The next digit would not fit, so all that follow are left out.
    split at h
    · cases h
      exact ⟨hsignificand, Nat.zero_le _, mul_pow_le_ofDigitChars _ _⟩
    · next hfits =>
      generalize hrest : absorb (10 * significand + (c.toNat - '0'.toNat)) cs = rest at h
      obtain ⟨last', count'⟩ := rest
      cases h
      obtain ⟨hlast, hcount, hle⟩ := ih hrest (Nat.not_lt.1 hfits)
      rw [Nat.ofDigitChars_cons, List.length_cons, Nat.add_sub_add_right]
      exact ⟨hlast, Nat.succ_le_succ hcount, hle⟩

/-! ### The values of numerals -/

namespace Numeral

/-- The value of a numeral without its sign. -/
def decimal (numeral : Numeral) : ℚ :=
  Nat.ofDigitChars 10 (numeral.whole ++ numeral.fraction.getD []) 0 *
    10 ^ (numeral.exponent.getD 0 - (numeral.fraction.getD []).length)

/-- A numeral with a point or an exponent and with few digits before the point. -/
structure IsFractional (numeral : Numeral) : Prop where
  marked : numeral.fraction.isNone = false ∨ numeral.exponent.isNone = false
  short : numeral.whole.length ≤ 16

end Numeral

theorem decimal_positional (digits : List Char) (point : Int) :
    (positional digits point).decimal =
      Nat.ofDigitChars 10 digits 0 * 10 ^ (point - digits.length) := by
  unfold positional
  split_ifs with hnone hall
  · -- Zeros at the front make no difference.
    have hzeros : Nat.ofDigitChars 10
        ('0' :: (List.replicate (-point).toNat '0' ++ digits)) 0 = Nat.ofDigitChars 10 digits 0 := by
      rw [Nat.ofDigitChars_cons, Nat.ofDigitChars_append, Nat.ofDigitChars_replicate_zero]
      simp
    have hplaces : (0 : Int) - ((-point).toNat + digits.length : Nat) = point - digits.length := by
      omega
    simp [Numeral.decimal, hzeros, ← hplaces]
  · -- Each zero at the end is a power of ten, and the last one is behind the point.
    obtain ⟨zeros, hzeros⟩ : ∃ zeros : Nat, point = digits.length + zeros :=
      ⟨point.toNat - digits.length, by omega⟩
    subst hzeros
    have hcount : ((digits.length : Int) + zeros).toNat - digits.length = zeros := by omega
    simp [Numeral.decimal, hcount, Nat.ofDigitChars_append, Nat.ofDigitChars_replicate_zero,
      Nat.ofDigitChars_cons]
    ring
  -- The point is among the digits, so as many stand behind it as are left.
  · have hplaces : (0 : Int) - (digits.length - point.toNat : Nat) = point - digits.length := by
      omega
    simp [Numeral.decimal, ← hplaces]

theorem decimal_scientific {digits : List Char} (hne : digits ≠ []) (point : Int) :
    (scientific digits point).decimal =
      Nat.ofDigitChars 10 digits 0 * 10 ^ (point - digits.length) := by
  obtain ⟨c, cs, rfl⟩ := List.exists_cons_of_ne_nil hne
  unfold scientific
  cases cs with
  | nil => simp [Numeral.decimal]
  | cons d ds =>
    have hplaces : point - 1 - ((ds.length : Int) + 1) = point - ((ds.length : Int) + 1 + 1) := by
      ring
    simp [Numeral.decimal, hplaces]

/-- **The numeral of digits** has their value. -/
theorem decimal_numeralOf (d : Digits) : (numeralOf d).decimal = d.value := by
  have hvalue : Nat.ofDigitChars 10 (Layout.digitsOf d.coefficient) 0 = d.coefficient :=
    Nat.ofDigitChars_ten_toDigits
  unfold numeralOf
  dsimp only
  split
  · rw [decimal_positional, hvalue, Digits.value, add_sub_cancel_right]
  · rw [decimal_scientific (Decimal.digitsOf_ne_nil _), hvalue, Digits.value, add_sub_cancel_right]

theorem isFractional_numeralOf (d : Digits) : (numeralOf d).IsFractional := by
  unfold numeralOf
  dsimp only
  split
  · next hpositional =>
    have hpoint : d.exponent + (Layout.digitsOf d.coefficient).length ≤ 16 := by
      simp only [numberLayout, Bool.and_eq_true, decide_eq_true_eq] at hpositional
      exact hpositional.2
    -- However the number is laid out, there is a point or an exponent.
    unfold positional
    split_ifs with hnone hall
    · exact ⟨.inl rfl, by simp⟩
    · exact ⟨.inl rfl, by simp; omega⟩
    · exact ⟨.inl rfl, by simp; omega⟩
  · exact ⟨.inr rfl, by simp [scientific]⟩

/-! ### Reading them -/

/-- **A significand and a power of ten** are read where their product leaves room for two
roundings. -/
theorem exists_scaled? {significand : Nat} {exponent : Int} (hsignificand : significand ≤ maxNatural)
    (hfits : (significand : ℚ) * 10 ^ exponent * growth ^ 2 < overflow) :
    ∃ x, scaled? significand exponent = some x := by
  have htoNat : significand.toUInt64.toNat = significand :=
    UInt64.toNat_ofNat_of_lt' (Nat.lt_of_le_of_lt hsignificand (by decide))
  unfold scaled?
  dsimp only
  split_ifs with hneg hpower hinf hzero
  -- A small power divides, which may give zero and never overflows.
  · exact ⟨_, rfl⟩
  · -- The product does not overflow.
    obtain ⟨power, rfl⟩ := Int.eq_ofNat_of_zero_le (Int.not_lt.1 hneg)
    rw [zpow_natCast, ← htoNat] at hfits
    have hfinite := Decimal.isInf_mul_ten (by omega : power ≤ 308) hfits
    exact absurd hinf (ne_true_of_eq_false hfinite)
  · exact ⟨_, rfl⟩
  · exact ⟨_, rfl⟩
  · -- The power alone is beyond the format.
    obtain ⟨power, rfl⟩ := Int.eq_ofNat_of_zero_le (Int.not_lt.1 hneg)
    have hbeyond := Decimal.overflow_lt_ten_pow (by omega : 309 ≤ power)
    have hone : (1 : ℚ) ≤ significand := by exact_mod_cast Nat.pos_of_ne_zero hzero
    rw [zpow_natCast] at hfits
    have hgrowth := Decimal.one_le_growth
    refine absurd hfits (not_lt.2 (hbeyond.le.trans ?_))
    calc (10 : ℚ) ^ power = 1 * 10 ^ power * 1 ^ 2 := by ring
      _ ≤ significand * 10 ^ power * growth ^ 2 := by gcongr

/-- **A numeral that is no integer** is read as a floating-point number where its value leaves room
for two roundings. -/
theorem Numeral.exists_value {numeral : Numeral} (h : numeral.Wellformed)
    (hfractional : numeral.IsFractional) (hfits : numeral.decimal * growth ^ 2 < overflow) :
    ∃ y, numeral.value = .number (.float y) := by
  -- The digits before the point are all taken up.
  have hwhole : Nat.ofDigitChars 10 numeral.whole 0 ≤ maxNatural := by
    have hlt := ofDigitChars_lt h.whole.isDigit 0
    have hpow : 10 ^ numeral.whole.length ≤ 10 ^ 16 :=
      Nat.pow_le_pow_right (by decide) hfractional.short
    have hmax : 10 ^ 16 ≤ maxNatural := by decide
    omega
  have hfirst := absorb_eq hwhole
  generalize hrest : absorb (Nat.ofDigitChars 10 numeral.whole 0) (numeral.fraction.getD []) = rest
  obtain ⟨significand, places⟩ := rest
  obtain ⟨hsignificand, hplaces, hle⟩ := absorb_le hrest hwhole
  rw [← Nat.ofDigitChars_append] at hle
  -- What is read is no more than the numeral's value.
  have hvalue : (significand : ℚ) * 10 ^ (-(places : Int) + numeral.exponent.getD 0) ≤
      numeral.decimal := by
    have hcast : (significand : ℚ) * 10 ^ ((numeral.fraction.getD []).length - places) ≤
        Nat.ofDigitChars 10 (numeral.whole ++ numeral.fraction.getD []) 0 := by
      exact_mod_cast hle
    have hsplit : -(places : Int) + numeral.exponent.getD 0 =
        ((numeral.fraction.getD []).length - places : Nat) +
          (numeral.exponent.getD 0 - (numeral.fraction.getD []).length) := by omega
    rw [Numeral.decimal, hsplit, zpow_add₀ (by norm_num), zpow_natCast, ← mul_assoc]
    gcongr
  have hread : ∃ x, scaled? significand (-(places : Int) + numeral.exponent.getD 0) = some x :=
    exists_scaled? hsignificand (lt_of_le_of_lt (by gcongr) hfits)
  obtain ⟨x, hx⟩ := hread
  -- A mark of a fraction keeps the number from being read as a whole one.
  have hnotIntegral : (numeral.fraction.isNone && numeral.exponent.isNone) = false := by
    rcases hfractional.marked with h | h <;> simp [h]
  unfold Numeral.value
  simp only [hfirst, hrest, hnotIntegral]
  simp [hx]

/-- Whether a value is a floating-point number. -/
def Value.isFloat : Value → Bool
  | .number (.float _) => true
  | _ => false

theorem Value.exists_of_isFloat {v : Value} (h : v.isFloat = true) :
    ∃ y, v = .number (.float y) := by
  cases v with
  | number n =>
    cases n with
    | float y => exact ⟨y, rfl⟩
    | _ => cases h
  | _ => cases h

/-- The three greatest numbers, and those below zero, are read as numbers. -/
theorem isFloat_reread_of_isGreatest {x : Double} (h : Decimal.Binary.isGreatest x = true) :
    (Number.float x).reread.isFloat = true := by
  -- A sign and one of three significands make six numbers.
  have htried : ∀ sign < 2, ∀ below < 3, (Number.float
      ⟨UInt64.ofNat (sign * 2 ^ 63 + (0x7FEFFFFFFFFFFFFF - below))⟩).reread.isFloat = true := by
    decide +kernel
  obtain ⟨sign, hsign, below, hbelow, hbits⟩ : ∃ sign < 2, ∃ below < 3,
      x.bits.toNat = sign * 2 ^ 63 + (0x7FEFFFFFFFFFFFFF - below) := by
    have hlt := x.bits.toNat_lt
    simp only [Decimal.Binary.isGreatest, Decimal.Binary.ofDouble, Nat.pow_eq, Bool.and_eq_true,
      decide_eq_true_eq] at h
    refine ⟨x.bits.toNat / 2 ^ 63, by omega, 2 ^ 52 - 1 - x.bits.toNat % 2 ^ 52, ?_⟩
    split at h <;> simp at h
    omega
  have hx : x = ⟨UInt64.ofNat (sign * 2 ^ 63 + (0x7FEFFFFFFFFFFFFF - below))⟩ := by
    rw [← hbits, UInt64.ofNat_toNat]
  exact hx ▸ htried sign hsign below hbelow

/-- The text of a finite number is that of the numeral of its digits, with its sign. -/
theorem text_of_isFinite {x : Double} (h : x.IsFinite) :
    Numeral.text { numeralOf (shortest .toEven x) with negative := x.isNegative } =
      (Number.float x).render := by
  rw [Number.render, Layout.render, if_neg (ne_true_of_eq_false h.1),
    if_neg (ne_true_of_eq_false h.2), String.toList_ofList]
  exact congrArg _ (magnitudeText_numeralOf _)

/-- **Finite numbers are read as floating-point numbers.** -/
theorem Number.exists_reread_of_isFinite {x : Double} (h : x.IsFinite) :
    ∃ y, (Number.float x).reread = .number (.float y) := by
  cases hgreatest : Decimal.Binary.isGreatest x with
  | true =>
    -- There is no room for two roundings here, so these few are tried.
    exact Value.exists_of_isFloat (isFloat_reread_of_isGreatest hgreatest)
  | false =>
    -- The text is a numeral close to the number, which leaves room for two roundings.
    have hwell := wellformed_numeralOf (Decimal.isCanonical_shortest .toEven x)
    have hsigned : Numeral.Wellformed
        { numeralOf (shortest .toEven x) with negative := x.isNegative } :=
      ⟨hwell.whole, hwell.leading, hwell.fraction⟩
    have hfractional := isFractional_numeralOf (shortest .toEven x)
    have hfits : Numeral.decimal { numeralOf (shortest .toEven x) with negative := x.isNegative } *
        growth ^ 2 < overflow :=
      calc Numeral.decimal { numeralOf (shortest .toEven x) with negative := x.isNegative } *
            growth ^ 2 = (shortest .toEven x).value * growth ^ 2 :=
              congrArg (· * growth ^ 2) (decimal_numeralOf _)
        _ ≤ (Decimal.Binary.ofDouble x).upper * growth ^ 2 := by
            gcongr
            exact Decimal.value_shortest_le .toEven x
        _ < overflow := Decimal.Binary.upper_mul_growth_lt h hgreatest
    obtain ⟨y, hy⟩ := Numeral.exists_value hsigned ⟨hfractional.marked, hfractional.short⟩ hfits
    exact ⟨y, by rw [Number.reread_of_text hsigned (text_of_isFinite h), hy]⟩

end CodeAssist.Json
