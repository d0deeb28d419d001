import CodeAssist.Dictionary
import CodeAssist.Json.Reader

/-!
# Decoding JSON values

Typed readings of a value. A record is written as an object, where unknown names are passed over
and a known one may stand only once, or as the array of its fields in order. A name of an
enumeration is a text, or an object with that name and nothing behind it. The notations whose
values these are differ in what may be passed over and in what is nothing (`Dialect`).
-/

namespace CodeAssist.Json.Decode

/-! ### Dialects -/

/-- What a notation accepts beyond the fields and the names themselves. -/
structure Dialect where
  /-- Whether an array that stands for a record may go on behind the last field. -/
  ignoresExtraItems : Bool
  /-- Which values may stand under a name that a record does not know. -/
  passesOver : Value → Bool
  /-- Which values are nothing, as they stand behind a name of an enumeration. -/
  isNothing : Value → Bool

/-- JSON passes over any value, even an invalid one, and has a constant for nothing. -/
def Dialect.json : Dialect where
  ignoresExtraItems := false
  passesOver _ := true
  isNothing
    | .null => true
    | _ => false

/-- TOML has to make sense of every member of a table, and writes nothing as an empty array or
table. -/
def Dialect.toml : Dialect where
  ignoresExtraItems := true
  passesOver := Value.sound
  isNothing
    | .array [] | .object [] => true
    | _ => false

/-! ### Simple types -/

/-- A natural number up to a limit. -/
def natUpTo (limit : Nat) : Value → Option Nat
  | .number (.natural n) => if n ≤ limit then some n else none
  | _ => none

/-- A natural number of 64 bits. -/
def nat : Value → Option Nat :=
  natUpTo maxNatural

/-- A floating-point number, which may be written as an integer of 64 bits. -/
def float : Value → Option Decimal.Double
  | .number (.natural n) => if n ≤ maxNatural then some (Decimal.nearest n 0) else none
  | .number (.negative n) => if n ≤ Nat.pow 2 63 then some (-Decimal.nearest n 0) else none
  | .number (.float x) => some x
  | _ => none

/-- A truth value. -/
def bool : Value → Option Bool
  | .bool b => some b
  | _ => none

/-- A text. -/
def text : Value → Option String
  | .text s => some s
  | _ => none

/-- A value, or `null` for none. -/
def optional {α : Type} (decode : Value → Option α) : Value → Option (Option α)
  | .null => some none
  | v => (decode v).map some

/-- A list of values. -/
def list {α : Type} (decode : Value → Option α) : Value → Option (List α)
  | .array items => items.mapM decode
  | _ => none

/-- A name of an enumeration. -/
def name {α : Type} (dialect : Dialect) (ofName? : String → Option α) : Value → Option α
  | .text s => ofName? s
  | .object [(s, v)] => if dialect.isNothing v then ofName? s else none
  | _ => none

/-! ### Records -/

/-- The fields that are present in a record. -/
structure Record where
  fields : List (String × Value)
  /-- Whether the record is written as an array, where a field can only be missing at the end. -/
  byPosition : Bool

/-- The fields of a record with the given field names. -/
def record (dialect : Dialect) (names : List String) : Value → Option Record
  | .object members =>
    let (known, unknown) := members.partition fun member => names.contains member.1
    -- A field that is written twice makes the record unreadable.
    if (known.map Prod.fst).Nodup && unknown.all fun member => dialect.passesOver member.2 then
      some ⟨known, false⟩
    else none
  | .array items =>
    if items.length ≤ names.length || dialect.ignoresExtraItems then some ⟨names.zip items, true⟩
    else none
  | _ => none

namespace Record

variable {α : Type} (r : Record)

/-- A field that must be present. -/
def required (field : String) (decode : Value → Option α) : Option α :=
  (r.fields.lookup field).bind decode

/-- A field that has a default. -/
def withDefault (field : String) (decode : Value → Option α) (fallback : α) : Option α :=
  match r.fields.lookup field with
  | some v => decode v
  | none => some fallback

/-- A field that an object may leave out. -/
def optional (field : String) (decode : Value → Option α) : Option (Option α) :=
  match r.fields.lookup field with
  | some v => Decode.optional decode v
  | none => if r.byPosition then none else some none

end Record

/-! ### Objects with any names, and any values -/

/-- The members of an object under their names; of several members with one name the last one
counts. -/
def dictionary {α : Type} (decode : Value → Option α) : Value → Option (Dictionary α)
  | .object members => do
    let entries ← members.mapM fun (key, v) => (decode v).map (key, ·)
    return .ofList entries
  | _ => none

/-- The deepest nesting that a value of any type may have. -/
def depthLimit : Nat := 127

mutual
/-- A value with the members of its objects in ascending order, each name once. -/
def canonical : Value → Value
  | .array items => .array (canonicalItems items)
  | .object members => .object (Dictionary.ofList (canonicalMembers members)).entries
  | v => v

/-- The canonical forms of some items. -/
def canonicalItems : List Value → List Value
  | [] => []
  | v :: vs => canonical v :: canonicalItems vs

/-- The members with their values in canonical form. -/
def canonicalMembers : List (String × Value) → List (String × Value)
  | [] => []
  | (key, v) :: members => (key, canonical v) :: canonicalMembers members
end

/-- A value of any type that stands `above` levels deep. -/
def any (above : Nat) (v : Value) : Option Value :=
  if v.sound && above + v.depth ≤ depthLimit then some (canonical v) else none

end CodeAssist.Json.Decode
