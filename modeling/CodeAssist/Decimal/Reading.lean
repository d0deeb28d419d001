import CodeAssist.Decimal.Double

/-!
# Reading decimals

A numeral's significant digits and its power of ten, read as the nearest floating-point number.
Powers of ten that no digits can bring back into the range are decided without being computed.
-/

namespace CodeAssist.Decimal

/-- The value of a row of decimal digits. -/
def digitsValue (digits : List Char) : Nat :=
  digits.foldl (fun n c => 10 * n + (c.toNat - '0'.toNat)) 0

/-- The floating-point number nearest to `coefficient * 10 ^ exponent`. -/
def nearest (coefficient : Nat) (exponent : Int) : Double :=
  -- The position of the point behind the first digit decides the magnitude.
  let size := (Nat.toDigits 10 coefficient).length + exponent
  if coefficient = 0 || size < -400 then 0.0
  else if 400 < size then .infinity
  else .ofFloat (.ofScientific coefficient (exponent < 0) exponent.natAbs)

end CodeAssist.Decimal
