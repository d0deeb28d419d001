import CodeAssist.Decimal.Reading
import CodeAssist.Json.Value

/-!
# JSON tokens

The marks, literals, numbers and texts of the notation, with the blanks between them dropped.

A number that is not an integer is read in two roundings: its leading digits, as many as fit into
64 bits, are rounded to a floating-point number, and that is multiplied or divided by the power of
ten. The result is exact to the last place for up to fifteen digits and moderate exponents; a
number beyond the range of the format is invalid.

A text is read in two steps: into code units, where an escape may stand for half of a surrogate
pair, and from these into characters. A half that stays alone makes the text invalid.
-/

namespace CodeAssist.Json

/-- A token of the notation. -/
inductive Token where
  /-- The marks. -/
  | openArray | closeArray | openObject | closeObject | comma | colon
  /-- A name of a constant, or a number. -/
  | scalar (v : Value)
  /-- A text, or none where it is invalid. -/
  | text (s : Option String)

/-! ### Numbers -/

/-- The largest natural number that a numeral is kept as. -/
def maxNatural : Nat := Nat.pow 2 64 - 1

/-- Appends digits to a significand while it fits into 64 bits, and counts them. -/
def absorb : Nat → List Char → Nat × Nat
  | significand, [] => (significand, 0)
  | significand, c :: cs =>
    let longer := 10 * significand + (c.toNat - '0'.toNat)
    -- The first digit that does not fit ends the significand.
    if maxNatural < longer then (significand, 0)
    else
      let (last, count) := absorb longer cs
      (last, count + 1)

/-- A power of ten as a floating-point number. -/
def tenTo (power : Nat) : Float :=
  Float.ofScientific 1 false power

/-- Divides by powers of ten up to `10 ^ 308` until the exponent is used up or nothing is left. -/
def scaleDown (x : Float) (exponent : Nat) : Float :=
  if 308 < exponent then
    if x == 0.0 then x else scaleDown (x / tenTo 308) (exponent - 308)
  else x / tenTo exponent
termination_by exponent
decreasing_by omega

/-- The significand times a power of ten, in two roundings; none beyond the range of the
format. -/
def scaled? (significand : Nat) (exponent : Int) : Option Float :=
  let x := significand.toUInt64.toFloat
  if exponent < 0 then some (scaleDown x exponent.natAbs)
  else if exponent ≤ 308 then
    let y := x * tenTo exponent.toNat
    if y.isInf then none else some y
  else if significand = 0 then some x else none

/-- A numeral taken apart. -/
structure Numeral where
  negative : Bool
  whole : List Char
  /-- The digits behind the point, none without a point. -/
  fraction : Option (List Char)
  /-- The power of ten, none without one. -/
  exponent : Option Int

/-- The value of a numeral: an integer where it has neither point nor exponent and fits into 64
bits, a negative one into 63, and a floating-point number otherwise. Minus zero is one, too. -/
def Numeral.value (numeral : Numeral) : Value :=
  let (first, taken) := absorb 0 numeral.whole
  -- An integer is read whole, without a digit left over.
  let integral := numeral.fraction.isNone && numeral.exponent.isNone &&
    taken = numeral.whole.length
  if integral && !numeral.negative then .number (.natural first)
  else if integral && 0 < first && first ≤ Nat.pow 2 63 then .number (.negative first)
  else
    let (significand, places) := absorb first (numeral.fraction.getD [])
    -- Digits left over before the point count as zeros; places behind it are taken back.
    let shift : Int := (numeral.whole.length - taken : Nat) - (places : Int)
    let sign := fun x : Float =>
      let d := Decimal.Double.ofFloat x
      if numeral.negative then -d else d
    if integral then .number (.float (sign first.toUInt64.toFloat))
    else match scaled? significand (shift + numeral.exponent.getD 0) with
      | some x => .number (.float (sign x))
      | none => .invalid

/-- Splits off the digits at the start. -/
def spanDigits (cs : List Char) : List Char × List Char :=
  (cs.takeWhile Char.isDigit, cs.dropWhile Char.isDigit)

/-- The part of a numeral behind its point. -/
def fraction? (cs : List Char) : Option (Option (List Char) × List Char) :=
  match cs with
  | '.' :: cs =>
    match spanDigits cs with
    | ([], _) => none
    | (digits, rest) => some (some digits, rest)
  | _ => some (none, cs)

/-- The digits of a power of ten, with the sign before them. -/
def signedDigits? (cs : List Char) : Option (Int × List Char) :=
  let (negative, cs) := match cs with
    | '-' :: cs => (true, cs)
    | '+' :: cs => (false, cs)
    | _ => (false, cs)
  match spanDigits cs with
  | ([], _) => none
  | (digits, rest) =>
    let n : Int := Decimal.digitsValue digits
    some (if negative then -n else n, rest)

/-- The power of ten at the end of a numeral. -/
def exponent? (cs : List Char) : Option (Option Int × List Char) :=
  match cs with
  | 'e' :: cs | 'E' :: cs => (signedDigits? cs).map fun (n, rest) => (some n, rest)
  | _ => some (none, cs)

/-- The whole part of a numeral: a zero on its own, or digits that start with another one. -/
def whole? (cs : List Char) : Option (List Char × List Char) :=
  match cs with
  | '0' :: cs => if (cs.head?.map Char.isDigit).getD false then none else some (['0'], cs)
  | _ =>
    match spanDigits cs with
    | ([], _) => none
    | (digits, rest) => some (digits, rest)

/-- The numeral at the start of a text. -/
def numeral? (cs : List Char) : Option (Numeral × List Char) := do
  let (negative, cs) := match cs with
    | '-' :: cs => (true, cs)
    | _ => (false, cs)
  let (whole, cs) ← whole? cs
  let (fraction, cs) ← fraction? cs
  let (exponent, cs) ← exponent? cs
  return (⟨negative, whole, fraction, exponent⟩, cs)

/-! ### Texts -/

/-- The value of a hexadecimal digit. -/
def hexValue? (c : Char) : Option Nat :=
  if '0' ≤ c && c ≤ '9' then some (c.toNat - '0'.toNat)
  else if 'a' ≤ c && c ≤ 'f' then some (c.toNat - 'a'.toNat + 10)
  else if 'A' ≤ c && c ≤ 'F' then some (c.toNat - 'A'.toNat + 10)
  else none

/-- The value of four hexadecimal digits. -/
def hexUnit? (a b c d : Char) : Option Nat := do
  let a ← hexValue? a
  let b ← hexValue? b
  let c ← hexValue? c
  let d ← hexValue? d
  return ((a * 16 + b) * 16 + c) * 16 + d

/-- The character for which a letter behind a backslash stands. -/
def escaped? (c : Char) : Option Char :=
  match c with
  | '"' => some '"'
  | '\\' => some '\\'
  | '/' => some '/'
  | 'b' => some '\x08'
  | 'f' => some '\x0c'
  | 'n' => some '\n'
  | 'r' => some '\r'
  | 't' => some '\t'
  | _ => none

/-- The code units of a text up to its closing quote. -/
def units? : List Char → Option (List Nat × List Char)
  | [] => none
  | '"' :: cs => some ([], cs)
  -- A code unit in four digits.
  | '\\' :: 'u' :: a :: b :: c :: d :: cs => do
    let unit ← hexUnit? a b c d
    let (rest, cs) ← units? cs
    return (unit :: rest, cs)
  | '\\' :: e :: cs => do
    let c ← escaped? e
    let (rest, cs) ← units? cs
    return (c.toNat :: rest, cs)
  | c :: cs =>
    -- Control characters must be escaped, and a backslash alone escapes nothing.
    if c.toNat < 0x20 || c = '\\' then none
    else do
      let (rest, cs) ← units? cs
      return (c.toNat :: rest, cs)

/-- Whether a code unit is the first half of a surrogate pair. -/
def isHighHalf (unit : Nat) : Bool := 0xD800 ≤ unit && unit ≤ 0xDBFF

/-- Whether a code unit is the second half of a surrogate pair. -/
def isLowHalf (unit : Nat) : Bool := 0xDC00 ≤ unit && unit ≤ 0xDFFF

/-- The characters for which code units stand; none where half of a pair stays alone. -/
def pairUnits? : List Nat → Option (List Char)
  | [] => some []
  | [unit] => if isHighHalf unit || isLowHalf unit then none else some [Char.ofNat unit]
  | first :: second :: units =>
    if isHighHalf first then
      if isLowHalf second then
        -- Each half gives ten bits of the distance from the first supplementary character.
        (pairUnits? units).map
          (Char.ofNat (0x10000 + (first - 0xD800) * 0x400 + (second - 0xDC00)) :: ·)
      else none
    else if isLowHalf first then none
    else (pairUnits? (second :: units)).map (Char.ofNat first :: ·)

/-! ### The tokens of a text -/

/-- Whether a character may stand between tokens. -/
def isSpace (c : Char) : Bool :=
  c = ' ' || c = '\n' || c = '\r' || c = '\t'

/-- The token at the start of a text that starts with no blank. -/
def token? : List Char → Option (Token × List Char)
  | [] => none
  | '[' :: cs => some (.openArray, cs)
  | ']' :: cs => some (.closeArray, cs)
  | '\x7b' :: cs => some (.openObject, cs)
  | '\x7d' :: cs => some (.closeObject, cs)
  | ',' :: cs => some (.comma, cs)
  | ':' :: cs => some (.colon, cs)
  | '"' :: cs => (units? cs).map fun (units, cs) =>
      (.text ((pairUnits? units).map String.ofList), cs)
  | 'n' :: 'u' :: 'l' :: 'l' :: cs => some (.scalar .null, cs)
  | 't' :: 'r' :: 'u' :: 'e' :: cs => some (.scalar (.bool true), cs)
  | 'f' :: 'a' :: 'l' :: 's' :: 'e' :: cs => some (.scalar (.bool false), cs)
  | cs => (numeral? cs).map fun (numeral, cs) => (.scalar numeral.value, cs)

/-- The tokens of a text, fewer than `fuel` of them. -/
def tokensWithin? : (fuel : Nat) → List Char → Option (List Token)
  | 0, _ => none
  | fuel + 1, cs =>
    match cs.dropWhile isSpace with
    | [] => some []
    | cs => do
      let (token, rest) ← token? cs
      let tokens ← tokensWithin? fuel rest
      return token :: tokens

/-- The tokens of a text. No token is empty, so there are at most as many as characters. -/
def tokens? (cs : List Char) : Option (List Token) :=
  tokensWithin? (cs.length + 1) cs

end CodeAssist.Json
