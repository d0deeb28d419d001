import CodeAssist.Analysis.Context
import CodeAssist.Analysis.Symbols
import CodeAssist.Error
import CodeAssist.Prompt.Extras
import CodeAssist.Prompt.Template
import CodeAssist.Settings

/-!
# Building prompts

A draft collects what goes into a prompt under a fixed limit of tokens. The template is measured
first; what it leaves is divided between imports, signatures, the suffix and the code before the
cursor, in this order. The code before the cursor is cut at its start and the suffix at its end, so
what stands next to the cursor is kept longest.

Measures need not add up: the finished prompt can exceed the limit although each part keeps to its
budget. `Draft.trim` then takes away at the start of the content until the limit holds. It ends
because a truncated text measures at most what was asked for (`Strategy.tokens_truncate_le`), and
less was asked for than the content measured before.
-/

namespace CodeAssist

open CodeAssist.Tokens (Measured Side Strategy)
open CodeAssist.Tree (Parser SyntaxTree)

/-- What is sent to the model. -/
structure Prompt where
  /-- The code before the cursor, with all that is put before and around it. -/
  before : String
  /-- The code behind the cursor, where the model is asked to fill a gap. -/
  after : Option String
  metadata : Prompt.Metadata

namespace Prompt

/-- What goes into a prompt under a limit of tokens. -/
structure Draft where
  strategy : Strategy
  settings : PromptSettings
  limit : Nat
  fileName : String
  language : Option Language
  template : Template
  /-- The template alone keeps to the limit. -/
  reserved_le : strategy.estimate (template.render "" fileName language) ≤ limit
  before : String
  after : Option String
  imports : List Measured
  signatures : List Measured

namespace Draft

/-- A draft without code. It is refused where the template alone exceeds the limit. -/
def start (strategy : Strategy) (settings : PromptSettings) (limit : Nat) (fileName : String)
    (language : Option Language) (template : Template) : Except Error Draft :=
  if h : strategy.estimate (template.render "" fileName language) ≤ limit then
    .ok ⟨strategy, settings, limit, fileName, language, template, h, "", none, [], []⟩
  else
    .error (.budgetExceeded (strategy.estimate (template.render "" fileName language)) limit)

/-! ### Collecting the parts -/

/-- Measures texts, each together with the line break that will join it to the next. -/
def measureJoined (strategy : Strategy) (texts : List String) : List Measured :=
  texts.map fun text => ⟨text, strategy.estimate (text ++ "\n")⟩

/-- A function header as comments, line by line. -/
def commentOut (style : CommentStyle) (header : String) : String :=
  "\n".intercalate ((Text.rows header.toList).map fun row =>
    style.render (String.ofList (Text.trimEnd row)))

variable (draft : Draft)

/-- Sets the code before and behind the cursor. -/
def setCode (before : String) (after : Option String) : Draft :=
  { draft with before, after }

/-- Takes the imports of a text. -/
def takeImports (parser : Parser) (source : String) : Draft :=
  match (tryParse parser source draft.language).ready? with
  | none => draft
  | some tree =>
    let found := Analysis.imports tree Analysis.defaultCeiling
    { draft with imports := measureJoined draft.strategy found }

/-- Takes the function headers of a text, as comments. -/
def takeSignatures (parser : Parser) (source : String) : Draft :=
  match draft.language, (tryParse parser source draft.language).ready? with
  | some language, some tree =>
    -- Headers say what code behind the cursor offers without repeating it.
    let found := Analysis.signatures tree Analysis.defaultCeiling
    let comments := found.map (commentOut language.commentStyle)
    { draft with signatures := measureJoined draft.strategy comments }
  | _, _ => draft

/-! ### Budgets -/

/-- A share of a number of tokens, rounded down; a negative share or one that is no number is
nothing. -/
def share (tokens : Nat) (part : Decimal.Double) : Nat :=
  -- The conversion to an integer drops what stands behind the point.
  ((UInt64.ofNatClamp tokens).toFloat * part.toFloat).toUInt64.toNat

/-- The tokens held back for the template. -/
def reserved : Nat :=
  draft.strategy.estimate (draft.template.render "" draft.fileName draft.language)

/-- The tokens that the template leaves. -/
def available : Nat :=
  draft.limit - draft.reserved

/-- The tokens that imports may take. -/
def importsBudget : Nat :=
  min (min (Tokens.total (draft.imports.map Measured.tokens))
    (share draft.limit draft.settings.importsPercent)) draft.available

/-- The tokens that signatures may take. -/
def signaturesBudget : Nat :=
  min (min (Tokens.total (draft.signatures.map Measured.tokens)) draft.settings.maxSignatureTokens)
    (draft.available - draft.importsBudget)

/-- The tokens that the code before and behind the cursor may take together. -/
def bodyBudget : Nat :=
  draft.available - draft.importsBudget - draft.signaturesBudget

/-- The tokens that the suffix may take. -/
def suffixBudget : Nat :=
  share draft.bodyBudget draft.settings.suffixPercent

/-! ### Parts -/

/-- The suffix before truncation: the rest of the node around the cursor, where the settings ask
for that and there is one, and otherwise all of the code behind the cursor. -/
def suffixCandidate (parser : Parser) (after : String) : String :=
  if !draft.settings.truncateSuffixToContext || draft.before = "" then after
  else
    let cursor := Text.endPoint draft.before.toList
    -- Both parts are parsed together, so that the node around the cursor is whole.
    ((tryParse parser (draft.before ++ after) draft.language).ready?.bind fun tree =>
      Analysis.restOfAnchor? tree cursor Analysis.defaultCeiling).getD after

/-- The suffix as sent. -/
def suffix? (parser : Parser) : Option Measured :=
  draft.after.map fun after =>
    draft.strategy.truncate (draft.suffixCandidate parser after) draft.suffixBudget .right

/-- The tokens of the suffix as sent. -/
def suffixTokens (parser : Parser) : Nat :=
  ((draft.suffix? parser).map Measured.tokens).getD 0

/-- The text of the suffix as sent. -/
def suffixText (parser : Parser) : String :=
  ((draft.suffix? parser).map Measured.text).getD ""

/-- The code before the cursor, cut to what the suffix leaves. -/
def body (parser : Parser) : Measured :=
  draft.strategy.truncate draft.before (draft.bodyBudget - draft.suffixTokens parser) .left

/-- The signatures that are not in the code already, as far as their budget lasts. -/
def chosenSignatures (parser : Parser) : List Measured :=
  chooseExtras draft.signatures draft.signaturesBudget
    [(draft.body parser).text, draft.suffixText parser]

/-- The code with the signatures before it. -/
def signedBody (parser : Parser) : String :=
  block (draft.chosenSignatures parser) ++ (draft.body parser).text

/-- The imports that are not in the code already, as far as their budget lasts. -/
def chosenImports (parser : Parser) : List Measured :=
  chooseExtras draft.imports draft.importsBudget
    [draft.signedBody parser, draft.suffixText parser]

/-- All that the template is put around. -/
def content (parser : Parser) : String :=
  block (draft.chosenImports parser) ++ draft.signedBody parser

/-! ### The prompt -/

/-- The template around some content. -/
def wrapped (content : String) : String :=
  draft.template.render content draft.fileName draft.language

/-- Takes away at the start of the content until the prompt, with `used` more tokens, keeps to the
limit. A content without tokens has nothing to take away. -/
def trim (used : Nat) (content : String) : Except Error String :=
  let total := draft.strategy.estimate (draft.wrapped content) + used
  let tokens := draft.strategy.estimate content
  if _fits : total ≤ draft.limit then .ok content
  else if _empty : tokens = 0 then .error (.budgetExceeded total draft.limit)
  else
    trim used (draft.strategy.truncate content (tokens - (total - draft.limit)) .left).text
termination_by draft.strategy.estimate content
decreasing_by
  -- Less is asked for than the content measures, and truncation keeps to what is asked for.
  rw [Strategy.estimate_truncate]
  exact Nat.lt_of_le_of_lt (Strategy.tokens_truncate_le ..) (by omega)

/-- The size of the code before the cursor as sent: all of the content where trimming went past the
extras. -/
def sentBody (parser : Parser) (content : String) : Size :=
  if (draft.body parser).text.toList.isSuffixOf content.toList then Size.of (draft.body parser)
  else Size.measure draft.strategy content

/-- The sizes of the components of the prompt with some content. -/
def metadata (parser : Parser) (content : String) : Metadata :=
  let withSuffix := match draft.after, draft.suffix? parser with
    | some after, some suffix =>
      Metadata.empty.record ⟨"suffix", .measure draft.strategy after, .of suffix⟩
    | _, _ => .empty
  -- The extras are recorded as chosen, before any trimming.
  ((withSuffix.record ⟨"function_signatures", .sum draft.signatures,
      .sum (draft.chosenSignatures parser)⟩).record
    ⟨"imports", .sum draft.imports, .sum (draft.chosenImports parser)⟩).record
    ⟨"prefix", .measure draft.strategy draft.before, draft.sentBody parser content⟩

/-- The prompt. -/
def finish (parser : Parser) : Except Error Prompt := do
  let content ← draft.trim (draft.suffixTokens parser) (draft.content parser)
  return ⟨draft.wrapped content, (draft.suffix? parser).map Measured.text,
    draft.metadata parser content⟩

/-- A prompt that consists of a given text alone. -/
def finishRaw (raw : String) : Except Error Prompt :=
  let tokens := draft.strategy.estimate raw
  if tokens ≤ draft.limit then
    let size := Size.measure draft.strategy raw
    .ok ⟨raw, none, Metadata.empty.record ⟨"prompt", size, size⟩⟩
  else .error (.budgetExceeded tokens draft.limit)

end Draft

end Prompt

end CodeAssist
