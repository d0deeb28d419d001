import CodeAssist.Decimal.Double

/-!
# Settings

What a user can configure, with the defaults that hold where a setting is left out. Shares of a
budget and thresholds are floating-point numbers, sizes and counts are natural numbers.
-/

namespace CodeAssist

open CodeAssist.Decimal (Double)

/-! ### Stages of the cleanup -/

/-- A stage of the cleanup of completions. -/
inductive CompletionStage where
  /-- A completion that is nothing but comments is discarded. -/
  | discardComments
  /-- Lines that repeat the code before the cursor are removed. -/
  | removeRepeats
  /-- What runs past the block around the start is cut off. -/
  | trimToBlock
  /-- Characters that break the code behind the cursor are taken away at the end. -/
  | repairEnd
  /-- A blank completion is discarded. -/
  | dropBlank
deriving DecidableEq, Repr

namespace CompletionStage

/-- All stages, in the order in which they run. -/
def all : List CompletionStage :=
  [discardComments, removeRepeats, trimToBlock, repairEnd, dropBlank]

/-- The name of a stage in a settings file. -/
def name : CompletionStage → String
  | discardComments => "remove_comment_only"
  | removeRepeats => "clean_model_reflection"
  | trimToBlock => "trim_by_min_allowed_context"
  | repairEnd => "fix_end_block_errors"
  | dropBlank => "strip_whitespaces"

/-- The stage with a given name. -/
def ofName? (name : String) : Option CompletionStage :=
  all.find? fun stage => stage.name = name

/-- No two stages share a name. -/
theorem ofName?_name (stage : CompletionStage) : ofName? stage.name = some stage := by
  cases stage <;> rfl

end CompletionStage

/-- A stage of the cleanup of generations. -/
inductive GenerationStage where
  /-- Lines that open a fence, and the fence's marks at the end, are removed. -/
  | stripFences
  /-- A generation starts on a line of its own. -/
  | prependLineBreak
  /-- Lines that repeat the code before the cursor are removed. -/
  | removeRepeats
  /-- A blank generation is discarded. -/
  | dropBlank
deriving DecidableEq, Repr

namespace GenerationStage

/-- All stages, in the order in which they run. -/
def all : List GenerationStage :=
  [stripFences, prependLineBreak, removeRepeats, dropBlank]

/-- The name of a stage in a settings file. -/
def name : GenerationStage → String
  | stripFences => "strip_code_block_markdown"
  | prependLineBreak => "prepend_new_line"
  | removeRepeats => "clean_model_reflection"
  | dropBlank => "strip_whitespaces"

/-- The stage with a given name. -/
def ofName? (name : String) : Option GenerationStage :=
  all.find? fun stage => stage.name = name

/-- No two stages share a name. -/
theorem ofName?_name (stage : GenerationStage) : ofName? stage.name = some stage := by
  cases stage <;> rfl

end GenerationStage

/-! ### Sections -/

/-- How tokens are counted. -/
inductive StrategyKind where
  /-- A fixed number of characters is one token. -/
  | characters
  /-- An encoder's tokens. -/
  | encoder
deriving DecidableEq, Repr

namespace StrategyKind

/-- The name of a way of counting in a settings file. -/
def name : StrategyKind → String
  | characters => "chars"
  | encoder => "tiktoken"

/-- The way of counting with a given name. -/
def ofName? (name : String) : Option StrategyKind :=
  [characters, encoder].find? fun kind => kind.name = name

/-- No two ways of counting share a name. -/
theorem ofName?_name (kind : StrategyKind) : ofName? kind.name = some kind := by
  cases kind <;> rfl

end StrategyKind

/-- Settings of the token strategy. -/
structure TokenSettings where
  strategy : StrategyKind := .characters
  charsPerToken : Nat := 4
  /-- Name of the encoder. -/
  encoding : String := "cl100k_base"

/-- Settings of the analyses. -/
structure AnalysisSettings where
  /-- Least number of rows of the block that a completion is trimmed to. -/
  minBlockLines : Nat := 2

/-- Budgets and templates of prompts. -/
structure PromptSettings where
  /-- Share of the token limit that imports may take. -/
  importsPercent : Double := 0.12
  /-- Share that the suffix may take of what the imports and signatures leave. -/
  suffixPercent : Double := 0.07
  maxSignatureTokens : Nat := 1024
  /-- Whether to cut the suffix to the rest of the node around the cursor. -/
  truncateSuffixToContext : Bool := false
  completionTemplate : Option String := none
  generationTemplate : Option String := none

/-- Thresholds of the cleanup of repeated lines. -/
structure RepeatSettings where
  /-- Least number of lines of a large group. -/
  minBlockSize : Nat := 5
  /-- Share of special characters from which on a large group is kept. -/
  minSpecialChars : Double := 0.25
  /-- Share of different characters from which on a large group is kept. -/
  minDiversityChars : Double := 0.35
  /-- Whether to drop a repetition of the line before the cursor. -/
  dropEchoedLine : Bool := true
  /-- Least number of visible characters of such a line. -/
  echoedLineMinChars : Nat := 1

/-- Settings of the cleanup of completions. -/
structure CompletionSettings where
  excludedStages : List CompletionStage := []
  /-- Greatest number of characters that are taken away to repair a block's end. -/
  maxFixAttempts : Nat := 4
  repeats : RepeatSettings := {}

/-- Settings of the cleanup of generations. -/
structure GenerationSettings where
  excludedStages : List GenerationStage := []
  repeats : RepeatSettings := {}

/-- All settings. -/
structure Settings where
  /-- Version of the settings' schema. -/
  version : Nat := 1
  /-- Greatest number of tokens of a prompt. -/
  maxModelLen : Nat := 2048
  /-- Replies with a lower score are dropped. -/
  minConfidenceScore : Double := -10.0
  tokens : TokenSettings := {}
  analysis : AnalysisSettings := {}
  prompt : PromptSettings := {}
  completions : CompletionSettings := {}
  generations : GenerationSettings := {}

end CodeAssist
