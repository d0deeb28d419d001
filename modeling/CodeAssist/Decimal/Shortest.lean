import CodeAssist.Decimal.Double

/-!
# The fewest digits that identify a floating-point number

A finite number stands for all reals that round to it, an interval with the number inside whose
ends belong to it exactly when its significand is even. `shortest` looks through the decimal grids
from the coarse ones to the fine ones and takes the first grid that has a point in the interval; of
two such points it takes the nearer one; on a tie the format decides. Only natural numbers are
computed with.
-/

namespace CodeAssist.Decimal

/-! ### Binary numbers -/

/-- A positive number `significand * 2 ^ exponent` of a floating-point format. -/
structure Binary where
  significand : Nat
  exponent : Int
  /-- Whether the gap to the number below is half the gap to the number above. -/
  narrowBelow : Bool

/-- The magnitude of a finite number. -/
def Binary.ofDouble (d : Double) : Binary :=
  let bits := d.bits.toNat
  let fraction : Nat := bits % Nat.pow 2 52
  let field : Nat := bits / Nat.pow 2 52 % Nat.pow 2 11
  -- Below the smallest normal number the leading bit is not implied.
  if field = 0 then ⟨fraction, -1074, false⟩
  else ⟨fraction + Nat.pow 2 52, (field : Int) - 1075, fraction = 0 && 1 < field⟩

/-! ### Decimal grids -/

/-- Which of two decimals that are equally near to a number is written. -/
inductive Tie where
  /-- The one with an even last digit. -/
  | toEven
  /-- The one of greater magnitude. -/
  | awayFromZero
deriving DecidableEq, Repr

/-- A decimal number `coefficient * 10 ^ exponent`. -/
structure Digits where
  coefficient : Nat
  exponent : Int
deriving DecidableEq, Repr

namespace Binary

variable (b : Binary)

/-! ### Points of a grid and ends of the interval

Both are compared as natural numbers: a point `coefficient * 10 ^ grid` times `gridFactor grid` and
a number of quarters of the last binary place times `quarterFactor grid` have one scale. -/

/-- The factor of a decimal grid's points, when they are compared with quarters of the last binary
place. -/
def gridFactor (grid : Int) : Nat :=
  Nat.pow 10 grid.toNat * Nat.pow 2 (2 - b.exponent).toNat

/-- The factor of quarters of the last binary place, when they are compared with a decimal grid's
points. -/
def quarterFactor (grid : Int) : Nat :=
  Nat.pow 10 (-grid).toNat * Nat.pow 2 (b.exponent - 2).toNat

/-- The lower end of the interval, in quarters of the last binary place. -/
def lowerEnd : Nat :=
  4 * b.significand - (if b.narrowBelow then 1 else 2)

/-- The upper end of the interval, in quarters of the last binary place. -/
def upperEnd : Nat :=
  4 * b.significand + 2

/-- Whether `coefficient * 10 ^ grid` rounds to the number. -/
def readsBack (coefficient : Nat) (grid : Int) : Bool :=
  let point := coefficient * b.gridFactor grid
  let low := b.lowerEnd * b.quarterFactor grid
  let high := b.upperEnd * b.quarterFactor grid
  if b.significand % 2 = 0 then low ≤ point && point ≤ high else low < point && point < high

/-! ### The search -/

/-- Whether the number is less than `10 ^ power`. -/
def isBelow (power : Int) : Bool :=
  4 * b.significand * b.quarterFactor power < b.gridFactor power

/-- The least power of ten above the number, searched upwards from a lower bound. -/
def scaleFrom : Nat → Int → Int
  | 0, power => power
  | steps + 1, power => if b.isBelow power then power else scaleFrom steps (power + 1)

/-- The least power of ten above the number. -/
def scale : Int :=
  b.scaleFrom 4 (((b.significand.log2 : Int) + b.exponent) * 30103 / 100000 - 1)

/-- The point of a decimal grid to write the number with, where one rounds to it. -/
def onGrid? (tie : Tie) (grid : Int) : Option Nat :=
  let value := 4 * b.significand * b.quarterFactor grid
  let unit := b.gridFactor grid
  let low := value / unit
  -- If any point of the grid lies in the interval, then one of the number's two neighbours does.
  match b.readsBack low grid, b.readsBack (low + 1) grid with
  | false, false => none
  | true, false => some low
  | false, true => some (low + 1)
  | true, true =>
    let twice := 2 * value
    let middle := (2 * low + 1) * unit
    if twice < middle then some low
    else if middle < twice then some (low + 1)
    else some (if tie = .toEven && low % 2 = 0 then low else low + 1)

/-- The first grid with at most `digits + left` digits, and at least `digits`, that has a point
for the number. -/
def searchGrids (tie : Tie) (scale : Int) : (left digits : Nat) → Option Digits
  | 0, _ => none
  | left + 1, digits =>
    match b.onGrid? tie (scale - digits) with
    | some coefficient => some ⟨coefficient, scale - digits⟩
    | none => searchGrids tie scale left (digits + 1)

end Binary

/-! ### The digits -/

/-- Moves the zeros at the end of the coefficient into the exponent, at most `limit` of them. -/
def stripZeros : (limit : Nat) → Digits → Digits
  | 0, d => d
  | limit + 1, d =>
    if d.coefficient % 10 = 0 && d.coefficient ≠ 0 then
      stripZeros limit ⟨d.coefficient / 10, d.exponent + 1⟩
    else d

/-- The fewest digits that identify the magnitude of a finite number; zero is `0 * 10 ^ 0`. -/
def shortest (tie : Tie) (d : Double) : Digits :=
  let b := Binary.ofDouble d
  if b.significand = 0 then ⟨0, 0⟩
  else
    -- Seventeen digits always suffice; all digits stand by in case they do not.
    let exact : Digits := ⟨b.significand * Nat.pow 2 b.exponent.toNat *
      Nat.pow 5 (-b.exponent).toNat, min b.exponent 0⟩
    stripZeros 400 ((b.searchGrids tie b.scale 17 1).getD exact)

end CodeAssist.Decimal
