import CodeAssist.Cleanup.Pipeline
import CodeAssist.Model
import CodeAssist.Prompt.Draft

/-!
# Suggesting code

The two use cases: completing the code between a prefix and a suffix, and generating code behind a
prefix. Each builds a prompt, asks the model once and cleans up the reply. A model that fails, or a
reply that scores too low, gives an empty suggestion; only a prompt that cannot be built is an
error, and then the model is not asked.
-/

namespace CodeAssist

open CodeAssist.Prompt (Draft Metadata Template)
open CodeAssist.Tokens (Strategy)
open CodeAssist.Tree (Parser)

/-! ### Results -/

/-- What the user is offered. -/
structure Suggestion where
  text : String
  score : Decimal.Double
  language : Option Language
  metadata : Metadata

/-- No suggestion. -/
def Suggestion.empty (language : Option Language) : Suggestion :=
  ⟨"", 0.0, language, .empty⟩

/-- The result of a use case, and what the model was sent on the way. -/
structure Exchange where
  sent : List (String × String)
  result : Except Error Suggestion

/-! ### Assistants -/

/-- What the use cases need to know. -/
structure Assistant where
  parser : Parser
  strategy : Strategy
  settings : Settings
  model : Model

namespace Assistant

variable (assistant : Assistant)

/-! ### Prompts -/

/-- A draft for a file, with a custom template where one is set. -/
def draft (fileName : String) (language : Option Language) (fallback : Template)
    (custom : Option String) : Except Error Draft :=
  Draft.start assistant.strategy assistant.settings.prompt assistant.settings.maxModelLen fileName
    language (fallback.choose custom)

/-- The prompt for completing the code between `before` and `after`. -/
def completionPrompt (before after fileName : String) (language : Option Language) :
    Except Error Prompt := do
  let draft ← assistant.draft fileName language .header
    assistant.settings.prompt.completionTemplate
  (((draft.setCode before (some after)).takeImports assistant.parser
    (before ++ after)).takeSignatures assistant.parser after).finish assistant.parser

/-- The prompt for generating code behind `before`. A raw prompt is sent as it is. -/
def generationPrompt (before fileName : String) (language : Option Language)
    (raw : Option String) : Except Error Prompt := do
  let draft ← assistant.draft fileName language .fence
    assistant.settings.prompt.generationTemplate
  match raw with
  | some raw => draft.finishRaw raw
  | none =>
    (((draft.setCode before none).takeImports assistant.parser before).takeSignatures
      assistant.parser before).finish assistant.parser

/-! ### Replies -/

/-- The text of a reply, or nothing where it scores too low. -/
def acceptedText (reply : Reply) : String :=
  if reply.score.toFloat < assistant.settings.minConfidenceScore.toFloat then "" else reply.text

/-- Sends a prompt and cleans up the reply; an empty reply stays empty. -/
def ask (prompt : Except Error Prompt) (language : Option Language) (clean : String → String) :
    Exchange :=
  match prompt with
  | .error e => ⟨[], .error e⟩
  | .ok prompt =>
    let after := prompt.after.getD ""
    let sent := [(prompt.before, after)]
    match assistant.model prompt.before after with
    | .error _ => ⟨sent, .ok (.empty language)⟩
    | .ok reply =>
      let text := assistant.acceptedText reply
      -- The score is reported even where the text is dropped.
      let cleaned := if text = "" then text else clean text
      ⟨sent, .ok ⟨cleaned, reply.score, language, prompt.metadata⟩⟩

/-! ### Use cases -/

/-- Completes the code between `before` and `after`. -/
def complete (before after fileName : String) (editorId : Option String) : Exchange :=
  let language := Language.resolve? fileName editorId
  let site : Cleanup.CompletionSite :=
    ⟨assistant.parser, before, after, language, assistant.settings.completions,
      assistant.settings.analysis.minBlockLines⟩
  assistant.ask (assistant.completionPrompt before after fileName language) language site.clean

/-- Generates code behind `before`. -/
def generate (before fileName : String) (editorId raw : Option String) : Exchange :=
  let language := Language.resolve? fileName editorId
  assistant.ask (assistant.generationPrompt before fileName language raw) language
    (Cleanup.cleanGeneration before assistant.settings.generations)

end Assistant

end CodeAssist
