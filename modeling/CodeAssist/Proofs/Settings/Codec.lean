import CodeAssist.Codec.Settings
import CodeAssist.Proofs.Json.Parts

/-!
# Settings as values and back

Settings that fit into the fields of a settings file (`Settings.InRange`) are decoded from the value
that encodes them (`Codec.decodeSettings_encodeSettings`), and from any part of that value as far
as the part goes: a field that it leaves out, or a whole section, has its default
(`Codec.decodeSettings_part`). Each section has a lemma of its own, as each is encoded and decoded
by itself. All of this holds of every decoder that does what is documented.
-/

namespace CodeAssist

open CodeAssist.Codec (Decoder)
open CodeAssist.Json

/-! ### Ranges -/

/-- Counts of 64 bits. -/
structure RepeatSettings.InRange (s : RepeatSettings) : Prop where
  minBlockSize : s.minBlockSize ≤ maxNatural
  echoedLineMinChars : s.echoedLineMinChars ≤ maxNatural

/-- Counts of 64 bits. -/
structure CompletionSettings.InRange (s : CompletionSettings) : Prop where
  maxFixAttempts : s.maxFixAttempts ≤ maxNatural
  repeats : s.repeats.InRange

/-- Settings whose numbers fit into the fields of a settings file: 32 bits for the version, and 64
bits for every other count. -/
structure Settings.InRange (s : Settings) : Prop where
  version : s.version ≤ Codec.maxVersion
  maxModelLen : s.maxModelLen ≤ maxNatural
  charsPerToken : s.tokens.charsPerToken ≤ maxNatural
  minBlockLines : s.analysis.minBlockLines ≤ maxNatural
  maxSignatureTokens : s.prompt.maxSignatureTokens ≤ maxNatural
  completions : s.completions.InRange
  generations : s.generations.repeats.InRange

/-! ### Fields that are kept -/

section Keeping

variable (there : Presence)

/-- The settings of the token strategy, with defaults for what is not there. -/
def TokenSettings.keeping (s : TokenSettings) : TokenSettings :=
  let fallback : TokenSettings := {}
  { strategy := there.keep "strategy" s.strategy fallback.strategy
    charsPerToken := there.keep "chars_per_token" s.charsPerToken fallback.charsPerToken
    encoding := there.keep "encoding" s.encoding fallback.encoding }

/-- The settings of the analyses, with defaults for what is not there. -/
def AnalysisSettings.keeping (s : AnalysisSettings) : AnalysisSettings :=
  let fallback : AnalysisSettings := {}
  { minBlockLines := there.keep "min_block_lines" s.minBlockLines fallback.minBlockLines }

/-- Budgets and templates, with defaults for what is not there. -/
def PromptSettings.keeping (s : PromptSettings) : PromptSettings :=
  let fallback : PromptSettings := {}
  { importsPercent := there.keep "imports_percent" s.importsPercent fallback.importsPercent
    suffixPercent := there.keep "suffix_percent" s.suffixPercent fallback.suffixPercent
    maxSignatureTokens :=
      there.keep "max_signature_tokens" s.maxSignatureTokens fallback.maxSignatureTokens
    truncateSuffixToContext :=
      there.keep "truncate_suffix_to_context" s.truncateSuffixToContext
        fallback.truncateSuffixToContext
    completionTemplate :=
      there.keep "completion_template" s.completionTemplate fallback.completionTemplate
    generationTemplate :=
      there.keep "generation_template" s.generationTemplate fallback.generationTemplate }

/-- The thresholds for repeated lines, with defaults for what is not there. -/
def RepeatSettings.keeping (s : RepeatSettings) : RepeatSettings :=
  let fallback : RepeatSettings := {}
  { minBlockSize := there.keep "min_block_size" s.minBlockSize fallback.minBlockSize
    minSpecialChars := there.keep "min_special_chars" s.minSpecialChars fallback.minSpecialChars
    minDiversityChars :=
      there.keep "min_diversity_chars" s.minDiversityChars fallback.minDiversityChars
    dropEchoedLine := there.keep "drop_echoed_line" s.dropEchoedLine fallback.dropEchoedLine
    echoedLineMinChars :=
      there.keep "echoed_line_min_chars" s.echoedLineMinChars fallback.echoedLineMinChars }

/-- The settings of the cleanup of completions, with defaults for what is not there. -/
def CompletionSettings.keeping (s : CompletionSettings) : CompletionSettings :=
  let fallback : CompletionSettings := {}
  { excludedStages := there.keep "excluded_stages" s.excludedStages fallback.excludedStages
    maxFixAttempts := there.keep "max_fix_attempts" s.maxFixAttempts fallback.maxFixAttempts
    repeats :=
      there.keep "reflection" (s.repeats.keeping (there.under "reflection")) fallback.repeats }

/-- The settings of the cleanup of generations, with defaults for what is not there. -/
def GenerationSettings.keeping (s : GenerationSettings) : GenerationSettings :=
  let fallback : GenerationSettings := {}
  { excludedStages := there.keep "excluded_stages" s.excludedStages fallback.excludedStages
    repeats :=
      there.keep "reflection" (s.repeats.keeping (there.under "reflection")) fallback.repeats }

/-- All settings, with defaults for the fields and sections that are not there. -/
def Settings.keeping (s : Settings) : Settings :=
  let fallback : Settings := {}
  { version := there.keep "version" s.version fallback.version
    maxModelLen := there.keep "max_model_len" s.maxModelLen fallback.maxModelLen
    minConfidenceScore :=
      there.keep "min_confidence_score" s.minConfidenceScore fallback.minConfidenceScore
    tokens := there.keep "tokens" (s.tokens.keeping (there.under "tokens")) fallback.tokens
    analysis :=
      there.keep "analysis" (s.analysis.keeping (there.under "analysis")) fallback.analysis
    prompt := there.keep "prompt" (s.prompt.keeping (there.under "prompt")) fallback.prompt
    completions :=
      there.keep "completions" (s.completions.keeping (there.under "completions"))
        fallback.completions
    generations :=
      there.keep "generations" (s.generations.keeping (there.under "generations"))
        fallback.generations }

end Keeping

/-! ### Decoding what was encoded -/

namespace Codec.Decoder.Documented

variable {decoder : Decoder} (h : decoder.Documented)
include h

theorem nat {n : Nat} (hn : n ≤ maxNatural) : decoder.nat (.nat n) = some n :=
  h.natUpTo (Nat.le_refl _) hn

theorem version {n : Nat} (hn : n ≤ maxVersion) :
    decoder.natUpTo maxVersion (.nat n) = some n :=
  h.natUpTo (by decide) hn

theorem optionalText (s : Option String) :
    decoder.optional decoder.text (.optional .text s) = some s := by
  cases s with
  | none => exact h.optional_null _
  | some s => rw [Value.optional, h.optional_text, h.text, Option.map_some]

/-- Names of an enumeration are decoded one by one. -/
theorem listName {α : Type} {name : α → String} {ofName? : String → Option α}
    (hname : ∀ x, ofName? (name x) = some x) (xs : List α) :
    decoder.list (decoder.name ofName?) (.array (xs.map fun x => .text (name x))) = some xs := by
  rw [h.list]
  induction xs with
  | nil => rfl
  | cons x xs ih =>
    rw [List.map_cons, List.mapM_cons, h.name, hname, ih]
    rfl

end Codec.Decoder.Documented

theorem Json.Value.isObject_optional_text (s : Option String) :
    (Value.optional .text s).isObject = false := by
  cases s <;> rfl

namespace Codec

variable {decoder : Decoder} {part : Value}

theorem decodeTokens_part (hd : decoder.Documented) {s : TokenSettings}
    (h : s.charsPerToken ≤ maxNatural) (hpart : PartOf decoder.passesOver part (encodeTokens s)) :
    decodeTokens decoder part = some (s.keeping part.has) := by
  obtain ⟨r, hr, hreads⟩ := hd.exists_reads
    ["strategy", "chars_per_token", "encoding"] hpart rfl (by decide)
  have hstrategy : decoder.name StrategyKind.ofName? (.text s.strategy.name) =
      some s.strategy := (hd.name _ _).trans (StrategyKind.ofName?_name s.strategy)
  simp [decodeTokens, TokenSettings.keeping, hr,
    hreads.leaf "strategy" rfl rfl hstrategy,
    hreads.leaf "chars_per_token" rfl rfl (hd.nat h),
    hreads.leaf "encoding" rfl rfl (hd.text _)]

theorem decodeAnalysis_part (hd : decoder.Documented) {s : AnalysisSettings}
    (h : s.minBlockLines ≤ maxNatural) (hpart : PartOf decoder.passesOver part (encodeAnalysis s)) :
    decodeAnalysis decoder part = some (s.keeping part.has) := by
  obtain ⟨r, hr, hreads⟩ := hd.exists_reads ["min_block_lines"] hpart rfl (by decide)
  simp [decodeAnalysis, AnalysisSettings.keeping, hr,
    hreads.leaf "min_block_lines" rfl rfl (hd.nat h)]

theorem decodePrompt_part (hd : decoder.Documented) {s : PromptSettings}
    (h : s.maxSignatureTokens ≤ maxNatural)
    (hpart : PartOf decoder.passesOver part (encodePrompt s)) :
    decodePrompt decoder part = some (s.keeping part.has) := by
  obtain ⟨r, hr, hreads⟩ := hd.exists_reads
    ["imports_percent", "suffix_percent", "max_signature_tokens", "truncate_suffix_to_context",
      "completion_template", "generation_template"] hpart rfl (by decide)
  -- Each field comes from its own name, if it is there, and from the default settings otherwise.
  simp [decodePrompt, PromptSettings.keeping, hr,
    hreads.leaf "imports_percent" rfl rfl (hd.float _),
    hreads.leaf "suffix_percent" rfl rfl (hd.float _),
    hreads.leaf "max_signature_tokens" rfl rfl (hd.nat h),
    hreads.leaf "truncate_suffix_to_context" rfl rfl (hd.bool _),
    hreads.leaf "completion_template" rfl (Value.isObject_optional_text _) (hd.optionalText _),
    hreads.leaf "generation_template" rfl (Value.isObject_optional_text _) (hd.optionalText _)]

theorem decodeRepeats_part (hd : decoder.Documented) {s : RepeatSettings} (h : s.InRange)
    (hpart : PartOf decoder.passesOver part (encodeRepeats s)) :
    decodeRepeats decoder part = some (s.keeping part.has) := by
  obtain ⟨r, hr, hreads⟩ := hd.exists_reads
    ["min_block_size", "min_special_chars", "min_diversity_chars", "drop_echoed_line",
      "echoed_line_min_chars"] hpart rfl (by decide)
  -- Each field comes from its own name, as it does in every section.
  simp [decodeRepeats, RepeatSettings.keeping, hr,
    hreads.leaf "min_block_size" rfl rfl (hd.nat h.minBlockSize),
    hreads.leaf "min_special_chars" rfl rfl (hd.float _),
    hreads.leaf "min_diversity_chars" rfl rfl (hd.float _),
    hreads.leaf "drop_echoed_line" rfl rfl (hd.bool _),
    hreads.leaf "echoed_line_min_chars" rfl rfl (hd.nat h.echoedLineMinChars)]

theorem decodeCompletions_part (hd : decoder.Documented) {s : CompletionSettings} (h : s.InRange)
    (hpart : PartOf decoder.passesOver part (encodeCompletions s)) :
    decodeCompletions decoder part = some (s.keeping part.has) := by
  obtain ⟨r, hr, hreads⟩ := hd.exists_reads
    ["excluded_stages", "max_fix_attempts", "reflection"] hpart rfl (by decide)
  simp [decodeCompletions, CompletionSettings.keeping, hr,
    hreads.leaf "excluded_stages" rfl rfl (hd.listName CompletionStage.ofName?_name _),
    hreads.leaf "max_fix_attempts" rfl rfl (hd.nat h.maxFixAttempts),
    -- A section is part of the section, so its own lemma reads it.
    hreads.field "reflection" rfl (fun there => s.repeats.keeping there)
      fun _ => decodeRepeats_part hd h.repeats]

theorem decodeGenerations_part (hd : decoder.Documented) {s : GenerationSettings}
    (h : s.repeats.InRange) (hpart : PartOf decoder.passesOver part (encodeGenerations s)) :
    decodeGenerations decoder part = some (s.keeping part.has) := by
  obtain ⟨r, hr, hreads⟩ := hd.exists_reads
    ["excluded_stages", "reflection"] hpart rfl (by decide)
  simp [decodeGenerations, GenerationSettings.keeping, hr,
    hreads.leaf "excluded_stages" rfl rfl (hd.listName GenerationStage.ofName?_name _),
    hreads.field "reflection" rfl (fun there => s.repeats.keeping there)
      fun _ => decodeRepeats_part hd h]

/-- **Part of the object of settings** is decoded as the settings, with defaults for the fields and
sections that it leaves out. -/
theorem decodeSettings_part (hd : decoder.Documented) {s : Settings} (h : s.InRange)
    (hpart : PartOf decoder.passesOver part (encodeSettings s)) :
    decodeSettings decoder part = some (s.keeping part.has) := by
  obtain ⟨r, hr, hreads⟩ := hd.exists_reads
    ["version", "max_model_len", "min_confidence_score", "tokens", "analysis", "prompt",
      "completions", "generations"] hpart rfl (by decide)
  simp [decodeSettings, Settings.keeping, hr,
    hreads.leaf "version" rfl rfl (hd.version h.version),
    hreads.leaf "max_model_len" rfl rfl (hd.nat h.maxModelLen),
    hreads.leaf "min_confidence_score" rfl rfl (hd.float _),
    -- From here on the fields are sections, each with its own part of the object.
    hreads.field "tokens" rfl (fun there => s.tokens.keeping there)
      fun _ => decodeTokens_part hd h.charsPerToken,
    hreads.field "analysis" rfl (fun there => s.analysis.keeping there)
      fun _ => decodeAnalysis_part hd h.minBlockLines,
    hreads.field "prompt" rfl (fun there => s.prompt.keeping there)
      fun _ => decodePrompt_part hd h.maxSignatureTokens,
    hreads.field "completions" rfl (fun there => s.completions.keeping there)
      fun _ => decodeCompletions_part hd h.completions,
    hreads.field "generations" rfl (fun there => s.generations.keeping there)
      fun _ => decodeGenerations_part hd h.generations]

/-- **Settings are decoded from the value that encodes them**, which leaves nothing out. -/
theorem decodeSettings_encodeSettings (hd : decoder.Documented) {s : Settings} (h : s.InRange) :
    decodeSettings decoder (encodeSettings s) = some s :=
  decodeSettings_part hd h (.whole (encodeSettings s))

end Codec

end CodeAssist
