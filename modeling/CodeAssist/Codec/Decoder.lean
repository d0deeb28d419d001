import CodeAssist.Json.Decode

/-!
# Decoders

A record such as the settings is read from a value field by field. How a record, a field or a number
is read is up to the notation whose value it is, or rather to the library that reads the notation; a
decoder brings these readings together. The runnable ones are those of a dialect.
-/

namespace CodeAssist.Codec

open CodeAssist.Json
open CodeAssist.Json.Decode (Dialect Record)

/-- Typed readings of the values of a notation. -/
structure Decoder where
  /-- The fields that were found in a record. -/
  Fields : Type
  /-- Whether a value may stand under a name that a record does not know. -/
  passesOver : Value → Bool
  /-- The fields of a record, by its field names. -/
  record : List String → Value → Option Fields
  /-- A field of a record that has a default. -/
  field : {α : Type} → Fields → String → (Value → Option α) → α → Option α
  /-- A natural number up to a limit. -/
  natUpTo : Nat → Value → Option Nat
  float : Value → Option Decimal.Double
  bool : Value → Option Bool
  text : Value → Option String
  /-- A value that may be missing. -/
  optional : {α : Type} → (Value → Option α) → Value → Option (Option α)
  list : {α : Type} → (Value → Option α) → Value → Option (List α)
  /-- A name of an enumeration. -/
  name : {α : Type} → (String → Option α) → Value → Option α

namespace Decoder

/-- A natural number of 64 bits. -/
def nat (decoder : Decoder) : Value → Option Nat :=
  decoder.natUpTo maxNatural

/-- The decoder for the values of a dialect. -/
def ofDialect (dialect : Dialect) : Decoder where
  Fields := Record
  passesOver := dialect.passesOver
  record := Decode.record dialect
  field r name decode fallback := r.withDefault name decode fallback
  natUpTo := Decode.natUpTo
  float := Decode.float
  bool := Decode.bool
  text := Decode.text
  optional := Decode.optional
  list := Decode.list
  name := Decode.name dialect

/-- The decoder for JSON values. -/
def json : Decoder := ofDialect .json

/-- The decoder for the values of TOML documents. -/
def toml : Decoder := ofDialect .toml

end Decoder

end CodeAssist.Codec
