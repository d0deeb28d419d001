import CodeAssist.Json.Token
import CodeAssist.Json.Writer
import CodeAssist.Proofs.Decimal.Digits

/-!
# Numerals that are read back

A numeral that is well-formed is read back from its own text, whatever follows that ends a numeral
(`numeral?_text`). Every number that is written at all is written as such a text
(`Number.render_cases`): the one thing to see is that no whole part starts with a superfluous zero,
and it is known of the digits of every number.

What a number becomes when its text is read (`Number.reread`) is therefore well-defined, but it is
not always the number: a numeral with a point or an exponent is read in two roundings. Whole numbers
of 64 bits do come back (`Number.reread_natural`).
-/

namespace CodeAssist.Json

open CodeAssist.Decimal (Digits Layout shortest)

/-! ### Rows of digits -/

/-- Digits, at least one of them. -/
structure IsDigits (cs : List Char) : Prop where
  ne_nil : cs ≠ []
  isDigit : ∀ c ∈ cs, c.isDigit = true

/-- A text that does not go on with a digit. -/
def EndsDigits (rest : List Char) : Prop :=
  ∀ c ∈ rest.head?, c.isDigit = false

theorem isDigits_digitsOf (n : Nat) : IsDigits (Layout.digitsOf n) :=
  ⟨Decimal.digitsOf_ne_nil n, fun _ => Decimal.isDigit_of_mem_digitsOf⟩

namespace IsDigits

variable {cs ds : List Char}

theorem append (hcs : IsDigits cs) (hds : ∀ c ∈ ds, c.isDigit = true) : IsDigits (cs ++ ds) where
  ne_nil h := hcs.ne_nil (List.append_eq_nil_iff.1 h).1
  isDigit c hc := (List.mem_append.1 hc).elim (hcs.isDigit c) (hds c)

/-- A row is read up to its end. -/
theorem spanDigits_append (hcs : IsDigits cs) {rest : List Char} (hrest : EndsDigits rest) :
    spanDigits (cs ++ rest) = (cs, rest) := by
  have htake : rest.takeWhile Char.isDigit = [] ∧ rest.dropWhile Char.isDigit = rest := by
    cases rest with
    | nil => exact ⟨rfl, rfl⟩
    | cons c rest => simp [hrest c rfl]
  rw [spanDigits, List.takeWhile_append_of_pos hcs.isDigit,
    List.dropWhile_append_of_pos hcs.isDigit, htake.1, htake.2, List.append_nil]

end IsDigits

theorem isDigit_of_mem_replicate {n : Nat} {c : Char} (h : c ∈ List.replicate n '0') :
    c.isDigit = true := by
  rw [List.eq_of_mem_replicate h]
  rfl

/-! ### Texts of numerals -/

namespace Numeral

/-- The text of the part behind the point. -/
def fractionText : Option (List Char) → List Char
  | none => []
  | some digits => '.' :: digits

/-- The text of the power of ten. -/
def exponentText : Option Int → List Char
  | none => []
  | some n => 'e' :: (if n < 0 then '-' else '+') :: Layout.digitsOf n.natAbs

/-- The text of a numeral without its sign. -/
def magnitudeText (numeral : Numeral) : List Char :=
  numeral.whole ++ fractionText numeral.fraction ++ exponentText numeral.exponent

/-- The text of a numeral. -/
def text (numeral : Numeral) : List Char :=
  (if numeral.negative then ['-'] else []) ++ numeral.magnitudeText

/-- A numeral whose parts are rows of digits, with no superfluous zero at the front. -/
structure Wellformed (numeral : Numeral) : Prop where
  whole : IsDigits numeral.whole
  leading : numeral.whole.head? = some '0' → numeral.whole = ['0']
  fraction : ∀ digits ∈ numeral.fraction, IsDigits digits

end Numeral

open Numeral (fractionText exponentText)

/-- A text that does not go on as a numeral could. -/
structure EndsNumeral (rest : List Char) : Prop where
  digits : EndsDigits rest
  point : rest.head? ≠ some '.'
  power : rest.head? ≠ some 'e' ∧ rest.head? ≠ some 'E'

/-! ### Reading the parts -/

/-- A whole part without a superfluous zero is read up to its end. -/
theorem whole?_append {whole rest : List Char} (hwhole : IsDigits whole)
    (hleading : whole.head? = some '0' → whole = ['0']) (hrest : EndsDigits rest) :
    whole? (whole ++ rest) = some (whole, rest) := by
  obtain ⟨c, cs, rfl⟩ := List.exists_cons_of_ne_nil hwhole.ne_nil
  -- A zero stands alone, and any other digit is followed by all that are there.
  by_cases hzero : c = '0'
  · obtain rfl : cs = [] := by simpa [hzero] using hleading
    subst hzero
    have hnext : (rest.head?.map Char.isDigit).getD false = false := by
      cases rest with
      | nil => rfl
      | cons c rest => exact hrest c rfl
    simp [whole?, hnext]
  · have hspan : spanDigits (c :: (cs ++ rest)) = (c :: cs, rest) :=
      hwhole.spanDigits_append hrest
    unfold whole?
    split
    · simp_all
    · simp [hspan]

/-- The part behind the point is read up to its end. -/
theorem fraction?_append {fraction : Option (List Char)} {rest : List Char}
    (hfraction : ∀ digits ∈ fraction, IsDigits digits) (hrest : EndsDigits rest)
    (hpoint : rest.head? ≠ some '.') :
    fraction? (fractionText fraction ++ rest) = some (fraction, rest) := by
  cases fraction with
  | none =>
    unfold fraction? fractionText
    split
    · simp_all
    · rfl
  | some digits =>
    -- The first digit is named, as the reader asks for one behind the point.
    have hdigits := hfraction digits rfl
    obtain ⟨c, cs, rfl⟩ := List.exists_cons_of_ne_nil hdigits.ne_nil
    have hspan : spanDigits (c :: (cs ++ rest)) = (c :: cs, rest) :=
      hdigits.spanDigits_append hrest
    simp [fraction?, fractionText, hspan]

/-- A power of ten is read up to its end. -/
theorem exponent?_append (exponent : Option Int) {rest : List Char} (hrest : EndsNumeral rest) :
    exponent? (exponentText exponent ++ rest) = some (exponent, rest) := by
  cases exponent with
  | none =>
    have hpower := hrest.power
    unfold exponent? exponentText
    split <;> simp_all
  | some n =>
    -- The digits of the power are written without the sign, which stands before them.
    obtain ⟨c, cs, hcs⟩ := List.exists_cons_of_ne_nil (Decimal.digitsOf_ne_nil n.natAbs)
    have hspan : spanDigits (c :: (cs ++ rest)) = (c :: cs, rest) :=
      (hcs ▸ isDigits_digitsOf n.natAbs).spanDigits_append hrest.digits
    have hvalue : Decimal.digitsValue (c :: cs) = n.natAbs :=
      hcs ▸ Nat.ofDigitChars_ten_toDigits (n := n.natAbs)
    have hsign : (if n < 0 then -(n.natAbs : Int) else n.natAbs) = n := by omega
    by_cases hneg : n < 0
    · rw [if_pos hneg] at hsign
      simp only [exponent?, exponentText, if_pos hneg, hcs, List.cons_append, signedDigits?, hspan,
        hvalue, if_true, hsign, Option.map_some]
    · rw [if_neg hneg] at hsign
      simp only [exponent?, exponentText, if_neg hneg, hcs, List.cons_append, signedDigits?, hspan,
        hvalue, Bool.false_eq_true, if_false, hsign, Option.map_some]

/-! ### Reading the whole -/

/-- A power of ten does not start with a digit, and neither does what follows a numeral. -/
theorem endsDigits_exponentText (exponent : Option Int) {rest : List Char}
    (hrest : EndsNumeral rest) :
    EndsDigits (exponentText exponent ++ rest) ∧
      (exponentText exponent ++ rest).head? ≠ some '.' := by
  cases exponent with
  | none => exact ⟨hrest.digits, hrest.point⟩
  | some n => exact ⟨fun c hc => by cases hc; rfl, by simp [exponentText]⟩

/-- **A well-formed numeral is read back** from its text, up to where the text ends. -/
theorem numeral?_text {numeral : Numeral} (h : numeral.Wellformed) {rest : List Char}
    (hrest : EndsNumeral rest) : numeral? (numeral.text ++ rest) = some (numeral, rest) := by
  obtain ⟨negative, whole, fraction, exponent⟩ := numeral
  -- Each part ends where the next one begins, so the parts are read from the left one by one.
  have hexponent := exponent?_append exponent hrest
  obtain ⟨hdigits, hpoint⟩ := endsDigits_exponentText exponent hrest
  have hfraction := fraction?_append h.fraction hdigits hpoint
  have htail : EndsDigits (fractionText fraction ++ (exponentText exponent ++ rest)) := by
    cases fraction with
    | none => exact hdigits
    | some digits => exact fun c hc => by cases hc; rfl
  have hwhole := whole?_append h.whole h.leading htail
  cases negative with
  | true => simp_all [numeral?, Numeral.text, Numeral.magnitudeText]
  | false =>
    -- The first character is a digit, and so no sign.
    obtain ⟨c, cs, rfl⟩ := List.exists_cons_of_ne_nil h.whole.ne_nil
    have hsign : c ≠ '-' := by
      rintro rfl
      exact absurd (h.whole.isDigit '-' List.mem_cons_self) (by decide)
    simp_all [numeral?, Numeral.text, Numeral.magnitudeText]

/-! ### Texts of numbers -/

/-- The numeral without an exponent that digits are written as, with the point behind the first
`point` of them. -/
def positional (digits : List Char) (point : Int) : Numeral :=
  if point ≤ 0 then
    ⟨false, ['0'], some (List.replicate (-point).toNat '0' ++ digits), none⟩
  else if digits.length ≤ point.toNat then
    ⟨false, digits ++ List.replicate (point.toNat - digits.length) '0', some ['0'], none⟩
  else
    ⟨false, digits.take point.toNat, some (digits.drop point.toNat), none⟩

/-- The numeral with an exponent that digits are written as. -/
def scientific (digits : List Char) (point : Int) : Numeral :=
  ⟨false, digits.take 1, if digits.length ≤ 1 then none else some (digits.drop 1),
    some (point - 1)⟩

/-- The numeral that digits are written as. -/
def numeralOf (d : Digits) : Numeral :=
  let digits := Layout.digitsOf d.coefficient
  let point := d.exponent + digits.length
  if numberLayout.positional point then positional digits point else scientific digits point

theorem magnitudeText_positional (digits : List Char) (point : Int) :
    (positional digits point).magnitudeText = Layout.positionally ".0" digits point := by
  unfold positional Layout.positionally
  split_ifs <;> simp [Numeral.magnitudeText, fractionText, exponentText]

theorem magnitudeText_scientific (digits : List Char) (point : Int) :
    (scientific digits point).magnitudeText = Layout.scientifically "+" digits point := by
  simp only [scientific, Numeral.magnitudeText, exponentText, Layout.scientifically]
  split_ifs <;> simp [fractionText]

/-- Digits are written as a numeral, however they are written. -/
theorem magnitudeText_numeralOf (d : Digits) :
    (numeralOf d).magnitudeText = numberLayout.magnitude d := by
  simp only [numeralOf, Layout.magnitude]
  split
  · exact magnitudeText_positional _ _
  · exact magnitudeText_scientific _ _

/-- Two well-formed rows of digits with a point between them are well-formed. -/
theorem wellformed_pointed {whole fraction : List Char} (hwhole : IsDigits whole)
    (hleading : whole.head? = some '0' → whole = ['0']) (hfraction : IsDigits fraction) :
    (Numeral.mk false whole (some fraction) none).Wellformed :=
  ⟨hwhole, hleading, fun _ h => Option.some.inj h ▸ hfraction⟩

theorem wellformed_positional {digits : List Char} {point : Int} (hdigits : IsDigits digits)
    (hleading : digits.head? = some '0' → point = 1 ∧ digits = ['0']) :
    (positional digits point).Wellformed := by
  obtain ⟨c, cs, rfl⟩ := List.exists_cons_of_ne_nil hdigits.ne_nil
  unfold positional
  split_ifs with hnone hall
  · -- The point stands before all digits.
    refine wellformed_pointed ⟨by simp, by simp⟩ (fun _ => rfl) ⟨by simp, fun c hc => ?_⟩
    exact (List.mem_append.1 hc).elim isDigit_of_mem_replicate (hdigits.isDigit c)
  · -- The point stands behind all digits, and behind the zeros that fill up to it.
    refine wellformed_pointed (hdigits.append fun c => isDigit_of_mem_replicate) (fun h => ?_)
      ⟨by simp, by simp⟩
    obtain ⟨rfl, hzero⟩ := hleading h
    simp [hzero]
  · -- The point stands between the digits.
    obtain ⟨before, hbefore⟩ : ∃ before : Nat, point.toNat = before + 1 :=
      ⟨point.toNat - 1, by omega⟩
    rw [hbefore] at hall ⊢
    refine wellformed_pointed ⟨by simp, fun c hc => hdigits.isDigit c (List.mem_of_mem_take hc)⟩
      (fun h => ?_) ⟨fun h => ?_, fun c hc => hdigits.isDigit c (List.mem_of_mem_drop hc)⟩
    · have hzero := (hleading h).2
      simp_all
    · exact hall (List.drop_eq_nil_iff.1 h)

theorem wellformed_scientific {digits : List Char} (hdigits : IsDigits digits) (point : Int) :
    (scientific digits point).Wellformed := by
  obtain ⟨c, cs, rfl⟩ := List.exists_cons_of_ne_nil hdigits.ne_nil
  -- The whole part is the first digit alone, and the others are the fraction, if there are any.
  refine ⟨⟨by simp [scientific], by simpa [scientific] using hdigits.isDigit c⟩,
    by simp [scientific], fun others h => ?_⟩
  cases cs with
  | nil => cases h
  | cons d ds =>
    cases h
    exact ⟨by simp, fun c hc => hdigits.isDigit c (List.mem_of_mem_drop hc)⟩

/-- **Digits are written as a well-formed numeral.** -/
theorem wellformed_numeralOf {d : Digits} (hd : d.IsCanonical) : (numeralOf d).Wellformed := by
  have hdigits := isDigits_digitsOf d.coefficient
  unfold numeralOf
  dsimp only
  split
  · refine wellformed_positional hdigits fun h => ?_
    -- Zero has one digit and no exponent, so that its point stands right behind the digit.
    have hzero : d.coefficient = 0 := Decimal.eq_zero_of_head?_digitsOf h
    simp [hd hzero, hzero]
  · exact wellformed_scientific hdigits _

/-- With a sign before it, the magnitude of a numeral is the text of a numeral. -/
theorem exists_signed (negative : Bool) {magnitude : List Char}
    (h : ∃ numeral : Numeral, numeral.Wellformed ∧ numeral.magnitudeText = magnitude) :
    ∃ numeral : Numeral, numeral.Wellformed ∧
      numeral.text = (if negative then ['-'] else []) ++ magnitude := by
  obtain ⟨numeral, hnumeral, rfl⟩ := h
  exact ⟨{ numeral with negative }, ⟨hnumeral.whole, hnumeral.leading, hnumeral.fraction⟩, rfl⟩

/-- The numeral that a whole number is written as. -/
def integral (n : Nat) : Numeral :=
  ⟨false, Layout.digitsOf n, none, none⟩

/-- A whole number starts with a zero only where it is zero. -/
theorem wellformed_integral (n : Nat) : (integral n).Wellformed where
  whole := isDigits_digitsOf n
  leading h := by
    rw [integral, Decimal.eq_zero_of_head?_digitsOf h, Decimal.digitsOf_zero]
  fraction _ h := nomatch h

theorem magnitudeText_integral (n : Nat) : (integral n).magnitudeText = Nat.toDigits 10 n :=
  (List.append_nil _).trans (List.append_nil _)

/-- **What is written for a number** is the text of a numeral, or `null` where it is no finite
number. -/
theorem Number.render_cases (n : Number) :
    n.render = ['n', 'u', 'l', 'l'] ∨
      ∃ numeral : Numeral, numeral.Wellformed ∧ numeral.text = n.render := by
  -- A whole number is written by its digits. A float has a text only if it is finite.
  cases n with
  | natural n =>
    exact .inr (exists_signed false ⟨_, wellformed_integral n, magnitudeText_integral n⟩)
  | negative n =>
    exact .inr (exists_signed true ⟨_, wellformed_integral n, magnitudeText_integral n⟩)
  | float x =>
    have hfinite := exists_signed x.isNegative
      ⟨_, wellformed_numeralOf (Decimal.isCanonical_shortest .toEven x), magnitudeText_numeralOf _⟩
    simp only [Number.render, Layout.render]
    split
    · exact .inl rfl
    split
    · -- Both infinities have the same text.
      exact .inl (by split <;> rfl)
    · exact .inr (by rwa [String.toList_ofList])

/-! ### Numbers that are read back -/

/-- What the text of a number is read as: the value of the numeral that is written, and `null`
where none is. -/
def Number.reread (n : Number) : Value :=
  match numeral? n.render with
  | some (numeral, _) => numeral.value
  | none => .null

theorem endsNumeral_nil : EndsNumeral [] :=
  ⟨by simp [EndsDigits], by simp, by simp⟩

/-- A number is read as the value of the numeral that is written. -/
theorem Number.reread_of_text {n : Number} {numeral : Numeral} (h : numeral.Wellformed)
    (htext : numeral.text = n.render) : n.reread = numeral.value := by
  have hread := numeral?_text h endsNumeral_nil
  rw [List.append_nil, htext] at hread
  rw [reread, hread]

theorem le_ofDigitChars (cs : List Char) (n : Nat) : n ≤ Nat.ofDigitChars 10 cs n := by
  induction cs generalizing n with
  | nil => exact Nat.le_refl n
  | cons c cs ih =>
    rw [Nat.ofDigitChars_cons]
    exact Nat.le_trans (by omega) (ih _)

/-- Digits are taken up as long as their number fits. -/
theorem absorb_eq {significand : Nat} {cs : List Char}
    (h : Nat.ofDigitChars 10 cs significand ≤ maxNatural) :
    absorb significand cs = (Nat.ofDigitChars 10 cs significand, cs.length) := by
  induction cs generalizing significand with
  | nil => rfl
  | cons c cs ih =>
    rw [Nat.ofDigitChars_cons] at h ⊢
    -- The digits to come leave at least what is taken up here, so that fits already.
    have hfits := Nat.not_lt.2 (Nat.le_trans (le_ofDigitChars cs _) h)
    rw [absorb, if_neg hfits, ih h]
    rfl

/-- **A whole number of 64 bits is read back.** -/
theorem Number.reread_natural {n : Nat} (h : n ≤ maxNatural) :
    (Number.natural n).reread = .number (.natural n) := by
  have hread : (Number.natural n).reread = (integral n).value :=
    reread_of_text (wellformed_integral n) (magnitudeText_integral n)
  have habsorb : absorb 0 (Layout.digitsOf n) = (n, (Layout.digitsOf n).length) := by
    have hvalue : Nat.ofDigitChars 10 (Layout.digitsOf n) 0 = n := Nat.ofDigitChars_ten_toDigits
    rw [absorb_eq (hvalue.symm ▸ h), hvalue]
  rw [hread]
  simp [Numeral.value, integral, habsorb]

end CodeAssist.Json
