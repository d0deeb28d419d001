import CodeAssist.Codec.Decoder
import CodeAssist.Json.Writer
import CodeAssist.Toml.Reader

/-!
# Formats of settings files

Settings are written as JSON and read as JSON or TOML, by libraries for these notations. What the
settings rely on are a writer, a reader of each notation for whole texts, and a decoder for the
values that the reader finds. The standard ones follow the libraries as far as they can be observed.
-/

namespace CodeAssist

open CodeAssist.Codec (Decoder)
open CodeAssist.Json (Value)

/-- The writers and readers of settings files. -/
structure Formats where
  /-- The JSON text of a value, on one line or with its items and members on lines of their own. As
  all names are texts, every value has one. -/
  write : (spread : Bool) → Value → String
  /-- The value that a JSON text writes. -/
  readJson : String → Option Value
  /-- The value that a TOML document writes. -/
  readToml : String → Option Value
  json : Decoder
  toml : Decoder

namespace Formats

/-- The runnable writers and readers. -/
def standard : Formats where
  write spread v := String.ofList (Json.renderAt spread 0 v)
  readJson := Json.read?
  readToml := Toml.read?
  json := .json
  toml := .toml

/-- What is read where a value was written. -/
def reread (formats : Formats) (v : Value) : Value :=
  (formats.readJson (formats.write true v)).getD .null

/-- What is read where a floating-point number was written, if that is one. -/
def rereadFloat (formats : Formats) (x : Decimal.Double) : Decimal.Double :=
  match formats.reread (.float x) with
  | .number (.float y) => y
  | _ => x

end Formats

end CodeAssist
