import CodeAssist.Decimal.Double

/-!
# JSON values

A value as a reader of the notation sees it. Numbers keep apart what is written as an integer and
what is not, because fields of integer type accept only the former. `invalid` stands for a literal
that is well-formed but has no value, such as a number too large for the format or half of a
surrogate pair: it may be passed over, but never decoded.
-/

namespace CodeAssist.Json

open CodeAssist.Decimal (Double)

/-- A number. -/
inductive Number where
  /-- A whole number from zero on. -/
  | natural (n : Nat)
  /-- A number below zero, by its magnitude. -/
  | negative (magnitude : Nat)
  | float (d : Double)
deriving DecidableEq, Repr

/-! ### Values -/

/-- A JSON value. An object keeps its members in the order in which they are written. -/
inductive Value where
  | null
  | bool (b : Bool)
  | number (n : Number)
  | text (s : String)
  | array (items : List Value)
  | object (members : List (String × Value))
  /-- A literal without a value. -/
  | invalid
deriving Inhabited

namespace Value

/-- A natural number as a value. -/
def nat (n : Nat) : Value := .number (.natural n)

/-- A floating-point number as a value. -/
def float (d : Double) : Value := .number (.float d)

/-- A value that may be missing. -/
def optional {α : Type} (encode : α → Value) : Option α → Value
  | none => null
  | some x => encode x

/-! ### Nesting -/

mutual
/-- How deeply arrays and objects are nested in a value. -/
def depth : Value → Nat
  | array items => depthItems items + 1
  | object members => depthMembers members + 1
  | _ => 0

/-- The greatest depth of some items. -/
def depthItems : List Value → Nat
  | [] => 0
  | v :: vs => max v.depth (depthItems vs)

/-- The greatest depth of some members. -/
def depthMembers : List (String × Value) → Nat
  | [] => 0
  | (_, v) :: members => max v.depth (depthMembers members)
end

/-! ### Soundness -/

mutual
/-- Whether no literal of a value is invalid. -/
def sound : Value → Bool
  | invalid => false
  | array items => soundItems items
  | object members => soundMembers members
  | _ => true

/-- Whether no literal of some items is invalid. -/
def soundItems : List Value → Bool
  | [] => true
  | v :: vs => v.sound && soundItems vs

/-- Whether no literal of some members is invalid. -/
def soundMembers : List (String × Value) → Bool
  | [] => true
  | (_, v) :: members => v.sound && soundMembers members
end

end Value

end CodeAssist.Json
