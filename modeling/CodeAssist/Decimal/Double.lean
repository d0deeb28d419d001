/-!
# Double-precision numbers

A double is kept as its 64 bits, so two doubles are equal exactly when they are the same bits: zero
has two signs, and so has a value that is no number. Arithmetic is that of floats, which `toFloat`
and `ofFloat` lead to and from.

Main statement: `neg_neg` says that changing the sign twice changes nothing. It holds of every
double, also of those that are no number, because the sign is a bit of its own.
-/

namespace CodeAssist.Decimal

/-- A floating-point number of double precision, as its bits. -/
structure Double where
  bits : UInt64
deriving DecidableEq, Repr, Inhabited

namespace Double

/-! ### Arithmetic -/

/-- The double with the value of a float. -/
def ofFloat (x : Float) : Double := ⟨x.toBits⟩

/-- The float with the value of a double. -/
def toFloat (d : Double) : Float := Float.ofBits d.bits

instance : OfScientific Double where
  ofScientific coefficient below exponent := ofFloat (.ofScientific coefficient below exponent)

/-! ### Signs -/

/-- The bit that holds the sign. -/
def signBit : UInt64 := 0x8000000000000000

instance : Neg Double where
  neg d := ⟨d.bits ^^^ signBit⟩

/-- The sign is changed and nothing else. -/
theorem bits_neg (d : Double) : (-d).bits = d.bits ^^^ signBit := rfl

/-- **Two changes of sign** cancel, because each flips the same bit. -/
theorem neg_neg (d : Double) : -(-d) = d := by
  have h : (-(-d)).bits = d.bits := by
    rw [bits_neg, bits_neg, UInt64.xor_assoc, UInt64.xor_self, UInt64.xor_zero]
  exact congrArg Double.mk h

/-- Whether a number carries a minus sign. -/
def isNegative (d : Double) : Bool :=
  d.bits.toNat / Nat.pow 2 63 = 1

/-! ### Values that are no finite numbers -/

/-- The positive infinity. -/
def infinity : Double := ⟨0x7FF0000000000000⟩

/-- A value that is no number. -/
def notANumber : Double := ⟨0x7FF8000000000000⟩

/-- Whether a value is no number. -/
def isNaN (d : Double) : Bool := d.toFloat.isNaN

/-- Whether a value is one of the infinities. -/
def isInf (d : Double) : Bool := d.toFloat.isInf

end Double

end CodeAssist.Decimal
