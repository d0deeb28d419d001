import CodeAssist.Json.Decode
import CodeAssist.Suggestion

/-!
# Requests and results as JSON values

Points, measured texts, prompts, replies and suggestions.
-/

namespace CodeAssist.Codec

open CodeAssist.Json
open CodeAssist.Json.Decode (Record record)
open CodeAssist.Prompt (Component Metadata Size)
open CodeAssist.Text (Point)
open CodeAssist.Tokens (Measured Side)
open CodeAssist.Tree (Excerpt)

/-! ### Names -/

/-- A language, by its short name. -/
def encodeLanguage (language : Language) : Value :=
  .text language.tag

/-- A language from its short name. -/
def decodeLanguage : Value → Option Language :=
  Decode.name .json Language.ofTag?

/-- The name of a side of truncation. -/
def sideName : Side → String
  | .left => "left"
  | .right => "right"

/-- A side of truncation from its name. -/
def decodeSide : Value → Option Side :=
  Decode.name .json fun name => [Side.left, Side.right].find? fun side => sideName side = name

/-! ### Points and texts -/

/-- A point as a value. -/
def encodePoint (p : Point) : Value :=
  .object [("row", .nat p.row), ("column", .nat p.column)]

/-- A point from a value. -/
def decodePoint (v : Value) : Option Point := do
  let r ← record .json ["row", "column"] v
  return ⟨← r.required "row" Decode.nat, ← r.required "column" Decode.nat⟩

/-- A measured text as a value. -/
def encodeMeasured (content : Measured) : Value :=
  .object [("text", .text content.text), ("length_tokens", .nat content.tokens)]

/-- A measured text from a value. -/
def decodeMeasured (v : Value) : Option Measured := do
  let r ← record .json ["text", "length_tokens"] v
  return ⟨← r.required "text" Decode.text, ← r.required "length_tokens" Decode.nat⟩

/-- An excerpt as a value. -/
def encodeExcerpt (excerpt : Excerpt) : Value :=
  .object [("text", .text excerpt.text), ("start", encodePoint excerpt.start),
    ("end", encodePoint excerpt.stop)]

/-- An excerpt from a value. -/
def decodeExcerpt (v : Value) : Option Excerpt := do
  let r ← record .json ["text", "start", "end"] v
  return ⟨← r.required "text" Decode.text, ← r.required "start" decodePoint,
    ← r.required "end" decodePoint⟩

/-! ### Prompts -/

/-- A size as a value. -/
def encodeSize (size : Size) : Value :=
  .object [("length", .nat size.length), ("length_tokens", .nat size.tokens)]

/-- A size from a value. -/
def decodeSize (v : Value) : Option Size := do
  let r ← record .json ["length", "length_tokens"] v
  return ⟨← r.required "length" Decode.nat, ← r.required "length_tokens" Decode.nat⟩

/-- A component as a value. -/
def encodeComponent (component : Component) : Value :=
  .object [("name", .text component.name), ("pre", encodeSize component.full),
    ("post", encodeSize component.sent)]

/-- A component from a value. -/
def decodeComponent (v : Value) : Option Component := do
  let r ← record .json ["name", "pre", "post"] v
  return ⟨← r.required "name" Decode.text, ← r.required "pre" decodeSize,
    ← r.required "post" decodeSize⟩

/-- The components of a prompt as a value, in ascending order of their names. -/
def encodeMetadata (metadata : Metadata) : Value :=
  .object [("components", .object (metadata.components.entries.map fun (name, component) =>
    (name, encodeComponent component)))]

/-- The components of a prompt from a value. -/
def decodeMetadata (v : Value) : Option Metadata := do
  let r ← record .json ["components"] v
  return ⟨← r.required "components" (Decode.dictionary decodeComponent)⟩

/-- A prompt as a value. -/
def encodePromptRecord (prompt : Prompt) : Value :=
  .object [("prefix", .text prompt.before), ("suffix", .optional .text prompt.after),
    ("metadata", encodeMetadata prompt.metadata)]

/-- A prompt from a value. -/
def decodePromptRecord (v : Value) : Option Prompt := do
  let r ← record .json ["prefix", "suffix", "metadata"] v
  return ⟨← r.required "prefix" Decode.text, ← r.optional "suffix" Decode.text,
    ← r.required "metadata" decodeMetadata⟩

/-! ### Replies and suggestions -/

/-- A reply as a value; what is not known about its safety is left out. -/
def encodeReply (reply : Reply) : Value :=
  let safety := match reply.safetyAttributes with
    | some v => [("safety_attributes", v)]
    | none => []
  .object (("text", .text reply.text) :: ("score", .float reply.score) :: safety)

/-- A reply from a value. -/
def decodeReply (v : Value) : Option Reply := do
  let r ← record .json ["text", "score", "safety_attributes"] v
  return ⟨← r.required "text" Decode.text, ← r.required "score" Decode.float,
    -- The reply itself is one level of nesting.
    ← r.withDefault "safety_attributes" (Decode.optional (Decode.any 1)) none⟩

/-- A suggestion as a value. -/
def encodeSuggestion (suggestion : Suggestion) : Value :=
  .object [("text", .text suggestion.text), ("score", .float suggestion.score),
    ("language", .optional encodeLanguage suggestion.language),
    ("metadata", encodeMetadata suggestion.metadata)]

/-- A suggestion from a value. -/
def decodeSuggestion (v : Value) : Option Suggestion := do
  let r ← record .json ["text", "score", "language", "metadata"] v
  return ⟨← r.required "text" Decode.text, ← r.required "score" Decode.float,
    ← r.optional "language" decodeLanguage, ← r.required "metadata" decodeMetadata⟩

end CodeAssist.Codec
