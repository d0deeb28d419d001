import CodeAssist.Codec.Records
import CodeAssist.CommandLine.Invocation
import CodeAssist.SettingsFile
import CodeAssist.Suggestion
import CodeAssist.Tokens.Choice

/-!
# The program

What each command prints, as a function of the file system. Settings are loaded first, so a broken
settings file is reported before anything else.
-/

namespace CodeAssist.CommandLine

open CodeAssist.Text (Point)
open CodeAssist.Tokens (Encoder Encoding Strategy)
open CodeAssist.Tree (Parser)

/-! ### Input and output -/

/-- What the program depends on. -/
structure Environment where
  files : FileSystem
  parser : Parser
  encoders : Encoding → Encoder

/-- What the program answers. -/
structure Output where
  exitCode : UInt32
  out : String
  err : String
deriving DecidableEq, Repr

/-- How the program is used. -/
def usage : String :=
  "Usage: code-assist [--config PATH] [--json-logs] COMMAND\n\n" ++
  "Commands:\n" ++
  "  language FILE [--editor-lang ID]\n" ++
  "  prompt FILE --line ROW --column COLUMN [--generation]\n" ++
  "  complete FILE --line ROW --column COLUMN --output TEXT [--score SCORE]\n" ++
  "  symbols FILE\n"

namespace Environment

variable (environment : Environment)

/-! ### Reading -/

/-- The settings to use. -/
def settings (config : Option String) : Except Error Settings :=
  match config with
  | none => .ok {}
  | some path => (SettingsFile.load .standard environment.files path).mapError .config

/-- The text of a source file. -/
def source (file : String) : Except Error String :=
  match environment.files.readText? file with
  | some text => .ok text
  | none => .error .unreadableSource

/-- The parts of a source before and behind a cursor. -/
def aroundCursor (source : String) (cursor : Point) : Except Error (String × String) :=
  match Text.splitAtPoint? source.toList cursor with
  | some (before, after) => .ok (String.ofList before, String.ofList after)
  | none => .error (.invalidCursor cursor)

/-- The name of a file without its directories. -/
def nameOf (file : String) : String :=
  (FilePath.fileName? file).getD ""

/-! ### Commands -/

/-- A value as the program prints it. -/
def printed (v : Json.Value) : String :=
  Json.pretty v ++ "\n"

/-- Prints the language of a file. -/
def printLanguage (file : String) (editorId : Option String) : String :=
  ((Language.resolve? (nameOf file) editorId).map Language.tag).getD "unknown" ++ "\n"

/-- The prompt for a cursor in a source. -/
def promptAt (settings : Settings) (file source : String) (cursor : Point) (generation : Bool) :
    Except Error Prompt := do
  let (before, after) ← aroundCursor source cursor
  let strategy ← Strategy.ofSettings environment.encoders settings.tokens
  let language := Language.resolve? (nameOf file) none
  let template := if generation then
      Prompt.Template.fence.choose settings.prompt.generationTemplate
    else Prompt.Template.header.choose settings.prompt.completionTemplate
  let draft ← Prompt.Draft.start strategy settings.prompt settings.maxModelLen (nameOf file)
    language template
  if generation then
    (((draft.setCode before none).takeImports environment.parser before).takeSignatures
      environment.parser before).finish environment.parser
  else
    (((draft.setCode before (some after)).takeImports environment.parser
      source).takeSignatures environment.parser after).finish environment.parser

/-- The suggestion for a cursor in a source, with a model that always gives the same reply. -/
def completeAt (settings : Settings) (file source : String) (cursor : Point) (reply : Reply) :
    Except Error Suggestion := do
  let (before, after) ← aroundCursor source cursor
  let strategy ← Strategy.ofSettings environment.encoders settings.tokens
  let assistant : Assistant :=
    ⟨environment.parser, strategy, settings, Model.canned (.ok reply)⟩
  (assistant.complete before after (nameOf file) none).result

/-- The numbers of symbols of a source. -/
def symbolCounts (file source : String) : Dictionary Nat :=
  ((tryParse environment.parser source (Language.resolve? (nameOf file) none)).map fun tree =>
    Analysis.symbolCounts tree Analysis.defaultCeiling).getD .empty

/-! ### Answers -/

/-- What a command prints. -/
def run (invocation : Invocation) : Except Error String := do
  -- Even a command that needs no settings fails where they are broken.
  let settings ← environment.settings invocation.config
  match invocation.command with
  | .language file editorId => return printLanguage file editorId
  | .prompt file line column generation =>
    let source ← environment.source file
    let prompt ← environment.promptAt settings file source ⟨line, column⟩ generation
    return printed (Codec.encodePromptRecord prompt)
  | .complete file line column output score =>
    let source ← environment.source file
    let suggestion ← environment.completeAt settings file source ⟨line, column⟩
      { text := output, score }
    return printed (Codec.encodeSuggestion suggestion)
  | .symbols file =>
    let source ← environment.source file
    return printed (.object ((environment.symbolCounts file source).entries.map fun entry =>
      (entry.1, .nat entry.2)))

/-- What the program answers to some arguments. -/
def answer (arguments : List String) : Output :=
  match Invocation.ofArguments arguments with
  | .error .help => ⟨0, usage, ""⟩
  | .error .usage => ⟨2, "", usage⟩
  | .ok invocation =>
    match environment.run invocation with
    | .ok out => ⟨0, out, ""⟩
    | .error e => ⟨1, "", "Error: " ++ e.message ++ "\n"⟩

end Environment

end CodeAssist.CommandLine
