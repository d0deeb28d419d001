import CodeAssist.Codec.Decoder
import CodeAssist.Settings

/-!
# Settings as JSON values

Every section and every field of a section may be left out and then has its default.
-/

namespace CodeAssist.Codec

open CodeAssist.Json

/-! ### Encoding -/

/-- The settings of the token strategy as a value. -/
def encodeTokens (s : TokenSettings) : Value := .object [
  ("strategy", .text s.strategy.name),
  ("chars_per_token", .nat s.charsPerToken),
  ("encoding", .text s.encoding)]

/-- The settings of the analyses as a value. -/
def encodeAnalysis (s : AnalysisSettings) : Value := .object [
  ("min_block_lines", .nat s.minBlockLines)]

/-- Budgets and templates as a value; a template that is not set is written as `null`. -/
def encodePrompt (s : PromptSettings) : Value := .object [
  ("imports_percent", .float s.importsPercent),
  ("suffix_percent", .float s.suffixPercent),
  ("max_signature_tokens", .nat s.maxSignatureTokens),
  ("truncate_suffix_to_context", .bool s.truncateSuffixToContext),
  ("completion_template", .optional .text s.completionTemplate),
  ("generation_template", .optional .text s.generationTemplate)]

/-- The thresholds for repeated lines as a value. -/
def encodeRepeats (s : RepeatSettings) : Value := .object [
  ("min_block_size", .nat s.minBlockSize),
  ("min_special_chars", .float s.minSpecialChars),
  ("min_diversity_chars", .float s.minDiversityChars),
  ("drop_echoed_line", .bool s.dropEchoedLine),
  ("echoed_line_min_chars", .nat s.echoedLineMinChars)]

/-- The settings of the cleanup of completions as a value. -/
def encodeCompletions (s : CompletionSettings) : Value := .object [
  ("excluded_stages", .array (s.excludedStages.map fun stage => .text stage.name)),
  ("max_fix_attempts", .nat s.maxFixAttempts),
  ("reflection", encodeRepeats s.repeats)]

/-- The settings of the cleanup of generations as a value. -/
def encodeGenerations (s : GenerationSettings) : Value := .object [
  ("excluded_stages", .array (s.excludedStages.map fun stage => .text stage.name)),
  ("reflection", encodeRepeats s.repeats)]

/-- All settings as a value. -/
def encodeSettings (s : Settings) : Value := .object [
  ("version", .nat s.version),
  ("max_model_len", .nat s.maxModelLen),
  ("min_confidence_score", .float s.minConfidenceScore),
  ("tokens", encodeTokens s.tokens),
  ("analysis", encodeAnalysis s.analysis),
  ("prompt", encodePrompt s.prompt),
  ("completions", encodeCompletions s.completions),
  ("generations", encodeGenerations s.generations)]

/-! ### Decoding -/

/-- The settings of the token strategy from a value. -/
def decodeTokens (decoder : Decoder) (v : Value) : Option TokenSettings := do
  let fallback : TokenSettings := {}
  let r ← decoder.record ["strategy", "chars_per_token", "encoding"] v
  return {
    strategy :=
      ← decoder.field r "strategy" (decoder.name StrategyKind.ofName?) fallback.strategy
    charsPerToken := ← decoder.field r "chars_per_token" decoder.nat fallback.charsPerToken
    encoding := ← decoder.field r "encoding" decoder.text fallback.encoding }

/-- The settings of the analyses from a value. -/
def decodeAnalysis (decoder : Decoder) (v : Value) : Option AnalysisSettings := do
  let fallback : AnalysisSettings := {}
  let r ← decoder.record ["min_block_lines"] v
  return {
    minBlockLines := ← decoder.field r "min_block_lines" decoder.nat fallback.minBlockLines }

/-- Budgets and templates from a value. -/
def decodePrompt (decoder : Decoder) (v : Value) : Option PromptSettings := do
  let fallback : PromptSettings := {}
  let r ← decoder.record ["imports_percent", "suffix_percent", "max_signature_tokens",
    "truncate_suffix_to_context", "completion_template", "generation_template"] v
  return {
    importsPercent := ← decoder.field r "imports_percent" decoder.float fallback.importsPercent
    suffixPercent := ← decoder.field r "suffix_percent" decoder.float fallback.suffixPercent
    maxSignatureTokens :=
      ← decoder.field r "max_signature_tokens" decoder.nat fallback.maxSignatureTokens
    truncateSuffixToContext :=
      ← decoder.field r "truncate_suffix_to_context" decoder.bool fallback.truncateSuffixToContext
    completionTemplate :=
      ← decoder.field r "completion_template" (decoder.optional decoder.text)
          fallback.completionTemplate
    generationTemplate :=
      ← decoder.field r "generation_template" (decoder.optional decoder.text)
          fallback.generationTemplate }

/-- The thresholds for repeated lines from a value. -/
def decodeRepeats (decoder : Decoder) (v : Value) : Option RepeatSettings := do
  let fallback : RepeatSettings := {}
  let r ← decoder.record ["min_block_size", "min_special_chars", "min_diversity_chars",
    "drop_echoed_line", "echoed_line_min_chars"] v
  return {
    minBlockSize := ← decoder.field r "min_block_size" decoder.nat fallback.minBlockSize
    minSpecialChars := ← decoder.field r "min_special_chars" decoder.float fallback.minSpecialChars
    minDiversityChars :=
      ← decoder.field r "min_diversity_chars" decoder.float fallback.minDiversityChars
    dropEchoedLine := ← decoder.field r "drop_echoed_line" decoder.bool fallback.dropEchoedLine
    echoedLineMinChars :=
      ← decoder.field r "echoed_line_min_chars" decoder.nat fallback.echoedLineMinChars }

/-- The settings of the cleanup of completions from a value. -/
def decodeCompletions (decoder : Decoder) (v : Value) : Option CompletionSettings := do
  let fallback : CompletionSettings := {}
  let r ← decoder.record ["excluded_stages", "max_fix_attempts", "reflection"] v
  return {
    excludedStages :=
      ← decoder.field r "excluded_stages" (decoder.list (decoder.name CompletionStage.ofName?))
          fallback.excludedStages
    maxFixAttempts := ← decoder.field r "max_fix_attempts" decoder.nat fallback.maxFixAttempts
    repeats := ← decoder.field r "reflection" (decodeRepeats decoder) fallback.repeats }

/-- The settings of the cleanup of generations from a value. -/
def decodeGenerations (decoder : Decoder) (v : Value) : Option GenerationSettings := do
  let fallback : GenerationSettings := {}
  let r ← decoder.record ["excluded_stages", "reflection"] v
  return {
    excludedStages :=
      ← decoder.field r "excluded_stages" (decoder.list (decoder.name GenerationStage.ofName?))
          fallback.excludedStages
    repeats := ← decoder.field r "reflection" (decodeRepeats decoder) fallback.repeats }

/-- The largest version of a schema. -/
def maxVersion : Nat := Nat.pow 2 32 - 1

/-- All settings from a value. -/
def decodeSettings (decoder : Decoder) (v : Value) : Option Settings := do
  let fallback : Settings := {}
  let r ← decoder.record ["version", "max_model_len", "min_confidence_score", "tokens", "analysis",
    "prompt", "completions", "generations"] v
  return {
    version := ← decoder.field r "version" (decoder.natUpTo maxVersion) fallback.version
    maxModelLen := ← decoder.field r "max_model_len" decoder.nat fallback.maxModelLen
    minConfidenceScore :=
      ← decoder.field r "min_confidence_score" decoder.float fallback.minConfidenceScore
    tokens := ← decoder.field r "tokens" (decodeTokens decoder) fallback.tokens
    analysis := ← decoder.field r "analysis" (decodeAnalysis decoder) fallback.analysis
    prompt := ← decoder.field r "prompt" (decodePrompt decoder) fallback.prompt
    completions := ← decoder.field r "completions" (decodeCompletions decoder) fallback.completions
    generations :=
      ← decoder.field r "generations" (decodeGenerations decoder) fallback.generations }

end CodeAssist.Codec
