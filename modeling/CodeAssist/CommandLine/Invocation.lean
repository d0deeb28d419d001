import CodeAssist.CommandLine.Options

/-!
# Invocations

What a user asks for on the command line: a command with its file and options. `--config` and
`--json-logs` belong to every command, and may stand before its name, too.
-/

namespace CodeAssist.CommandLine

open CodeAssist.Decimal (Double)

/-! ### Commands -/

/-- What to do. -/
inductive Command where
  /-- Prints the language of a file. -/
  | language (file : String) (editorId : Option String)
  /-- Prints the prompt for a cursor in a file. -/
  | prompt (file : String) (line column : Nat) (generation : Bool)
  /-- Prints the suggestion that a given output becomes at a cursor in a file. -/
  | complete (file : String) (line column : Nat) (output : String) (score : Double)
  /-- Prints how many symbols of each kind a file has. -/
  | symbols (file : String)
deriving DecidableEq, Repr

/-- A command, and the settings file to use with it. -/
structure Invocation where
  config : Option String
  command : Command
deriving DecidableEq, Repr

/-! ### Options of commands -/

/-- The options that every command has. -/
def globalOptions : List OptionForm :=
  [⟨"config", some 'c', some .path⟩, ⟨"json-logs", none, none⟩]

/-- The options of the cursor. -/
def cursorOptions : List OptionForm :=
  [⟨"line", some 'l', some .natural⟩, ⟨"column", some 'C', some .natural⟩]

/-- The options of a command. -/
def optionsOf? (command : String) : Option (List OptionForm) :=
  match command with
  | "language" => some [⟨"editor-lang", some 'e', some .text⟩]
  | "prompt" => some (cursorOptions ++ [⟨"generation", some 'g', none⟩])
  | "complete" =>
    some (cursorOptions ++
      [⟨"output", some 'o', some .text⟩, ⟨"score", some 's', some .number⟩])
  | "symbols" => some []
  | _ => none

/-! ### Reading -/

/-- The value of something that must be given. -/
def Progress.required {α : Type} (progress : Progress) (name : String)
    (value? : String → Option α) : Except Refusal α :=
  orUsage ((progress.value? name).bind value?)

/-- The command with a name, from what is read behind it. -/
def commandOf (name : String) (progress : Progress) : Except Refusal Command := do
  let file ← progress.required "file" some
  match name with
  | "language" => return .language file (progress.value? "editor-lang")
  | "prompt" =>
    return .prompt file (← progress.required "line" natValue?)
      (← progress.required "column" natValue?) (progress.value? "generation").isSome
  | "complete" =>
    return .complete file (← progress.required "line" natValue?)
      (← progress.required "column" natValue?) (← progress.required "output" some)
      (((progress.value? "score").bind floatValue?).getD 0.0)
  | "symbols" => return .symbols file
  | _ => throw .usage

/-- What is asked for behind `help`: the program, a command, or `help` itself. -/
def helpOn : List String → Refusal
  | [] => .help
  | [name] => if name = "help" || (optionsOf? name).isSome then .help else .usage
  | _ => .usage

/-- What some arguments ask for. A settings file that is named behind the command wins over one
before it. -/
def Invocation.ofArguments (arguments : List String) : Except Refusal Invocation := do
  let (before, name, rest) ← Progress.start.readUntilPlain globalOptions arguments
  if name = "help" then throw (helpOn rest)
  let forms ← orUsage (optionsOf? name)
  let behind ← Progress.start.readAll (forms ++ globalOptions) rest
  let command ← commandOf name behind
  -- What is pending before the command is settled last.
  let before ← before.settle
  return ⟨(behind.value? "config").or (before.value? "config"), command⟩

end CodeAssist.CommandLine
