import CodeAssist.Json.Token

/-!
# Values on the command line

How the values of options and files are written. A value that does not look like its kind makes
the arguments senseless.
-/

namespace CodeAssist.CommandLine

open CodeAssist.Decimal (Double)

/-! ### Numbers -/

/-- A natural number of 64 bits, before which a plus sign may stand. -/
def natValue? (text : String) : Option Nat :=
  let digits := match text.toList with
    | '+' :: rest => rest
    | cs => cs
  if digits.isEmpty || !digits.all Char.isDigit then none
  else
    let n := Decimal.digitsValue digits
    if n ≤ Json.maxNatural then some n else none

/-- The digits before and behind a point, at least one of them. -/
def pointed? (cs : List Char) : Option (List Char × List Char) :=
  let whole := cs.takeWhile Char.isDigit
  let places? := match cs.dropWhile Char.isDigit with
    | [] => some []
    | '.' :: places => if places.all Char.isDigit then some places else none
    | _ => none
  places?.bind fun places =>
    if whole.isEmpty && places.isEmpty then none else some (whole, places)

/-- A floating-point number without its sign, or the name of one in any case. -/
def magnitude? (cs : List Char) : Option Double :=
  match String.ofList (cs.map Char.toLower) with
  | "inf" | "infinity" => some .infinity
  | "nan" => some .notANumber
  | _ => do
    let isMark := fun c => c = 'e' || c = 'E'
    let (whole, places) ← pointed? (cs.takeWhile fun c => !isMark c)
    let power ← match cs.dropWhile fun c => !isMark c with
      | [] => some (0 : Int)
      | _ :: rest =>
        match Json.signedDigits? rest with
        | some (n, []) => some n
        | _ => none
    return Decimal.nearest (Decimal.digitsValue (whole ++ places)) (power - places.length)

/-- A floating-point number. -/
def floatValue? (text : String) : Option Double :=
  match text.toList with
  | '-' :: cs => (magnitude? cs).map fun d => -d
  | '+' :: cs => magnitude? cs
  | cs => magnitude? cs

/-! ### Kinds -/

/-- What a value has to look like. -/
inductive ValueKind where
  /-- The path of a file, which is not empty. -/
  | path
  | natural
  | number
  | text
deriving DecidableEq, Repr

/-- Whether a text is a value of some kind. -/
def ValueKind.accepts (kind : ValueKind) (text : String) : Bool :=
  match kind with
  | .path => text ≠ ""
  | .natural => (natValue? text).isSome
  | .number => (floatValue? text).isSome
  | .text => true

end CodeAssist.CommandLine
