import CodeAssist.Cleanup.Blocks
import CodeAssist.Cleanup.Repeats

/-!
# Cleaning up replies

A reply of the model goes through the stages of its kind, in their order, except for those that the
settings exclude.
-/

namespace CodeAssist.Cleanup

open CodeAssist
open CodeAssist.Tree (Parser)

/-! ### Fences and breaks -/

/-- Three of the marks that fences are made of. -/
def fenceMarks : List Char := ['\x60', '\x60', '\x60']

/-- Whether a line, with its break, opens a fence: three marks and a name without blanks. -/
def opensFence (line : List Char) : Bool :=
  -- The last of the characters is the break, the first three are the marks.
  fenceMarks.isPrefixOf line && line.getLast? = some '\n' &&
    !((line.drop 3).dropLast.any Text.isBlank)

/-- A text without the lines that open a fence and without the fence's marks at its end. -/
def stripFences (text : String) : String :=
  let kept := (Text.terminated text.toList).filter fun line => !opensFence line
  String.ofList (Text.dropEndWhile (· = '\x60') kept.flatten)

/-- A text on a line of its own: with a line break before it, unless there is one already. -/
def prependLineBreak (context text : String) : String :=
  -- Nothing needs no line of its own.
  if text ≠ "" && context.toList.getLast? ≠ some '\n' && text.toList.head? ≠ some '\n' then
    "\n" ++ text
  else text

/-- A text, or nothing where it is blank. -/
def dropBlank (text : String) : String :=
  if (Text.trim text.toList).isEmpty then "" else text

/-! ### Completions -/

/-- What the cleanup of a completion depends on. -/
structure CompletionSite where
  parser : Parser
  /-- The code before the cursor. -/
  before : String
  /-- The code behind the cursor. -/
  after : String
  language : Option Language
  settings : CompletionSettings
  /-- Least number of rows of the block that a completion is trimmed to. -/
  minRows : Nat

namespace CompletionSite

variable (site : CompletionSite)

/-- One stage of the cleanup. -/
def run (text : String) : CompletionStage → String
  | .discardComments => discardComments site.parser text site.language
  | .removeRepeats => removeRepeats site.before text site.settings.repeats
  | .trimToBlock =>
    trimToBlock site.parser site.before text site.language site.minRows
  | .repairEnd =>
    repairEnd site.parser site.before text site.after site.language
      site.settings.maxFixAttempts
  | .dropBlank => dropBlank text

/-- A completion after all stages. The empty text goes through every stage unchanged, so a
completion that one of them discards stays discarded. -/
def clean (completion : String) : String :=
  let stages := CompletionStage.all.filter fun stage =>
    !site.settings.excludedStages.contains stage
  stages.foldl site.run completion

end CompletionSite

/-! ### Generations -/

/-- One stage of the cleanup of a generation behind some code. -/
def runGenerationStage (before : String) (settings : GenerationSettings) (text : String) :
    GenerationStage → String
  | .stripFences => stripFences text
  | .prependLineBreak => prependLineBreak before text
  | .removeRepeats => removeRepeats before text settings.repeats
  | .dropBlank => dropBlank text

/-- A generation behind some code, after all stages. -/
def cleanGeneration (before : String) (settings : GenerationSettings) (text : String) : String :=
  let stages := GenerationStage.all.filter fun stage => !settings.excludedStages.contains stage
  stages.foldl (runGenerationStage before settings) text

end CodeAssist.Cleanup
