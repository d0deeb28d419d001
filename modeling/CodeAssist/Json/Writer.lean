import CodeAssist.Decimal.Layout
import CodeAssist.Json.Value

/-!
# Writing JSON

A value is written on one line, or with every item and member on a line of its own, indented by two
blanks a level; an empty array or object stays on its line. Floating-point numbers are written with
the fewest digits that identify them, and those that are no numbers as `null`.
-/

namespace CodeAssist.Json

/-! ### Numbers and texts -/

/-- Numbers have a point or an exponent with a sign, and are written positionally from `10 ^ -5`
up to `10 ^ 16`. Of two decimals that are equally near, the even one is written. -/
def numberLayout : Decimal.Layout where
  positional point := -5 < point && point ≤ 16
  wholeMark := ".0"
  plusMark := "+"
  tie := .toEven
  notANumber := "null"
  infinity := "null"
  negativeInfinity := "null"

/-- The text of a number. -/
def Number.render : Number → List Char
  | natural n => Nat.toDigits 10 n
  | negative n => '-' :: Nat.toDigits 10 n
  | float x => (numberLayout.render x).toList

/-- A character inside a text. Quotes, backslashes and control characters are escaped. -/
def escape (c : Char) : List Char :=
  match c with
  | '"' => ['\\', '"']
  | '\\' => ['\\', '\\']
  | '\n' => ['\\', 'n']
  | '\r' => ['\\', 'r']
  | '\t' => ['\\', 't']
  | '\x08' => ['\\', 'b']
  | '\x0c' => ['\\', 'f']
  | c =>
    -- The other control characters have no short form.
    if c.toNat < 0x20 then
      ['\\', 'u', '0', '0', Nat.digitChar (c.toNat / 16), Nat.digitChar (c.toNat % 16)]
    else [c]

/-- A text in quotes. -/
def quote (s : String) : List Char :=
  '"' :: s.toList.flatMap escape ++ ['"']

/-! ### Values -/

/-- The line break before an item at some depth, none on one line. -/
def lineBreak (spread : Bool) (depth : Nat) : List Char :=
  if spread then '\n' :: List.replicate (2 * depth) ' ' else []

mutual
/-- The text of a value at some depth. -/
def renderAt (spread : Bool) (depth : Nat) : Value → List Char
  | .null | .invalid => ['n', 'u', 'l', 'l']
  | .bool true => ['t', 'r', 'u', 'e']
  | .bool false => ['f', 'a', 'l', 's', 'e']
  | .number n => n.render
  | .text s => quote s
  | .array [] => ['[', ']']
  | .array (v :: vs) =>
    '[' :: lineBreak spread (depth + 1) ++ renderAt spread (depth + 1) v ++
      renderItems spread (depth + 1) vs ++ lineBreak spread depth ++ [']']
  | .object [] => ['\x7b', '\x7d']
  | .object ((name, v) :: members) =>
    '\x7b' :: lineBreak spread (depth + 1) ++ quote name ++
      (if spread then [':', ' '] else [':']) ++ renderAt spread (depth + 1) v ++
      renderMembers spread (depth + 1) members ++ lineBreak spread depth ++ ['\x7d']

/-- The texts of the later items of an array. -/
def renderItems (spread : Bool) (depth : Nat) : List Value → List Char
  | [] => []
  | v :: vs =>
    ',' :: lineBreak spread depth ++ renderAt spread depth v ++ renderItems spread depth vs

/-- The texts of the later members of an object. -/
def renderMembers (spread : Bool) (depth : Nat) : List (String × Value) → List Char
  | [] => []
  | (name, v) :: members =>
    ',' :: lineBreak spread depth ++ quote name ++ (if spread then [':', ' '] else [':']) ++
      renderAt spread depth v ++ renderMembers spread depth members
end

/-- The text of a value on one line. -/
def compact (v : Value) : String :=
  String.ofList (renderAt false 0 v)

/-- The text of a value with its items and members on lines of their own. -/
def pretty (v : Value) : String :=
  String.ofList (renderAt true 0 v)

end CodeAssist.Json
