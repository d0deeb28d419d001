import CodeAssist.Decimal.Shortest

/-!
# Writing decimals

A layout says when a number is written positionally, what follows a whole number, which sign a
positive exponent has, how ties between digits are broken, and what stands for the values that are
no numbers. With an exponent, a number has one digit before the point.
-/

namespace CodeAssist.Decimal

/-! ### Layouts -/

/-- How floating-point numbers are written. -/
structure Layout where
  /-- Whether to write positionally, by the position of the point behind the first digit. -/
  positional : Int → Bool
  /-- What follows a whole number that is written positionally. -/
  wholeMark : String
  /-- What precedes an exponent that is not negative. -/
  plusMark : String
  tie : Tie
  /-- What stands for a value that is no number. -/
  notANumber : String
  infinity : String
  negativeInfinity : String

namespace Layout

/-- The digits of a natural number. -/
def digitsOf (n : Nat) : List Char :=
  Nat.toDigits 10 n

/-- The digits with the point behind the first `point` of them, where zeros fill the places that
the digits leave open. -/
def positionally (wholeMark : String) (digits : List Char) (point : Int) : List Char :=
  if point ≤ 0 then
    '0' :: '.' :: List.replicate (-point).toNat '0' ++ digits
  else if digits.length ≤ point.toNat then
    digits ++ List.replicate (point.toNat - digits.length) '0' ++ wholeMark.toList
  else
    digits.take point.toNat ++ '.' :: digits.drop point.toNat

/-- The digits with the point behind the first one and the exponent that this takes. -/
def scientifically (plusMark : String) (digits : List Char) (point : Int) : List Char :=
  let exponent := point - 1
  let sign := if exponent < 0 then ['-'] else plusMark.toList
  digits.take 1 ++ (if digits.length ≤ 1 then [] else '.' :: digits.drop 1) ++
    'e' :: sign ++ digitsOf exponent.natAbs

/-! ### Rendering -/

/-- The text of a magnitude. -/
def magnitude (layout : Layout) (d : Digits) : List Char :=
  let digits := digitsOf d.coefficient
  let point := d.exponent + digits.length
  if layout.positional point then positionally layout.wholeMark digits point
  else scientifically layout.plusMark digits point

/-- The text of a number. -/
def render (layout : Layout) (d : Double) : String :=
  if d.isNaN then layout.notANumber
  else if d.isInf then if d.isNegative then layout.negativeInfinity else layout.infinity
  else
    let sign := if d.isNegative then ['-'] else []
    String.ofList (sign ++ layout.magnitude (shortest layout.tie d))

end Layout

/-- Plain decimals: always positional, and a whole number has no point. Of two decimals that are
equally near, the greater magnitude is written. -/
def plain : Layout where
  positional _ := true
  wholeMark := ""
  plusMark := ""
  tie := .awayFromZero
  notANumber := "NaN"
  infinity := "inf"
  negativeInfinity := "-inf"

end CodeAssist.Decimal
