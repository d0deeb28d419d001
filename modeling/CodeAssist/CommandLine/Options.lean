import CodeAssist.CommandLine.Values

/-!
# Options and files

Arguments are read from left to right. What was read last may still wait for its value, so it is
pending until something else settles it: only then it is checked. A value that is attached to its
option is settled at once. The order shows where the user asks for help, because help is refused
where anything before it was wrong, and wins over everything behind it.

The file that a command works on is read like an option without a name: it may stand anywhere, but
not twice.
-/

namespace CodeAssist.CommandLine

/-- Why there is nothing to run. -/
inductive Refusal where
  /-- The user asks for help. -/
  | help
  /-- The arguments make no sense. -/
  | usage
deriving DecidableEq, Repr

/-- What makes sense, or a refusal. -/
def orUsage {α : Type} : Option α → Except Refusal α
  | some x => .ok x
  | none => .error .usage

/-! ### Forms -/

/-- An option: its long name, its letter if it has one, and the kind of its value, none for a
switch. -/
structure OptionForm where
  long : String
  letter : Option Char
  kind : Option ValueKind
deriving DecidableEq, Repr

namespace OptionForm

/-- The file that a command works on. -/
def file : OptionForm := ⟨"file", none, some .path⟩

/-- Whether no value belongs to an option. -/
def isSwitch (form : OptionForm) : Bool := form.kind.isNone

/-- Whether an option may occur with this value, or without one. -/
def fits (form : OptionForm) (value : Option String) : Bool :=
  match form.kind, value with
  | some kind, some text => kind.accepts text
  | none, none => true
  | _, _ => false

/-- The option with a long name. -/
def named? (forms : List OptionForm) (name : String) : Option OptionForm :=
  forms.find? fun form => form.long = name

/-- The option with a letter. -/
def lettered? (forms : List OptionForm) (letter : Char) : Option OptionForm :=
  forms.find? fun form => form.letter = some letter

end OptionForm

/-! ### Arguments -/

/-- An argument by its looks. -/
inductive Argument where
  /-- Two dashes alone. -/
  | escape
  /-- Two dashes and a name, and perhaps a value behind an equals sign. -/
  | long (name : String) (value : Option String)
  /-- A dash and letters. -/
  | letters (letters : List Char)
  /-- Anything else, and a dash alone. -/
  | plain (text : String)

/-- What an argument looks like. -/
def Argument.ofText (text : String) : Argument :=
  match text.toList with
  | ['-', '-'] => escape
  | '-' :: '-' :: rest =>
    -- The first equals sign ends the name.
    let name := String.ofList (rest.takeWhile (· ≠ '='))
    match rest.dropWhile (· ≠ '=') with
    | _ :: value => long name (some (String.ofList value))
    | [] => long name none
  | '-' :: c :: rest => letters (c :: rest)
  | _ => plain text

/-! ### What is read so far -/

/-- Something that occurs, with its value where one belongs to it. -/
structure Occurrence where
  long : String
  value : String
deriving DecidableEq, Repr

/-- Something that is not settled yet, and its value if that is known. -/
structure Pending where
  form : OptionForm
  value : Option String
deriving DecidableEq, Repr

/-- What is read so far. -/
structure Progress where
  settled : List Occurrence
  pending : Option Pending

namespace Progress

/-- Nothing is read. -/
def start : Progress := ⟨[], none⟩

/-- The value of what is settled under a name. -/
def value? (progress : Progress) (name : String) : Option String :=
  (progress.settled.find? fun occurrence => occurrence.long = name).map Occurrence.value

variable (progress : Progress)

/-- Settles an occurrence, which must have a fitting value and be the first of its form. -/
def add (form : OptionForm) (value : Option String) : Except Refusal Progress :=
  if form.fits value && (progress.value? form.long).isNone then
    .ok { progress with settled := ⟨form.long, value.getD ""⟩ :: progress.settled }
  else .error .usage

/-- Settles what is pending. -/
def settle : Except Refusal Progress :=
  match progress.pending with
  | none => .ok progress
  | some ⟨form, value⟩ => add { progress with pending := none } form value

/-- Settles what is pending, and reads something that is pending from now on. -/
def await (form : OptionForm) (value : Option String) : Except Refusal Progress := do
  return { ← progress.settle with pending := some ⟨form, value⟩ }

/-- Reads an option without a value of its own, or with one that is attached to it. -/
def readOption (form : OptionForm) (value : Option String) : Except Refusal Progress := do
  if form.isSwitch || value.isSome then (← progress.settle).add form value
  else progress.await form none

/-- The user asks for help. -/
def refuse {α : Type} : Except Refusal α := do
  let _ ← progress.settle
  throw .help

/-- Reads a text that is the value of what waits for one, or otherwise a file. -/
def readPlain (text : String) : Except Refusal Progress :=
  match progress.pending with
  | some ⟨form, none⟩ => .ok { progress with pending := some ⟨form, some text⟩ }
  | _ => progress.await .file (some text)

/-- Reads a long name. -/
def readLong (forms : List OptionForm) (name : String) (value : Option String) :
    Except Refusal Progress := do
  if name = "help" then if value.isNone then progress.refuse else throw .usage
  else progress.readOption (← orUsage (OptionForm.named? forms name)) value

/-- Reads a group of letters. The rest of a group is the value of the first letter that takes
one. -/
def readLetters (forms : List OptionForm) (progress : Progress) :
    List Char → Except Refusal Progress
  | [] => .ok progress
  | 'h' :: _ => progress.refuse
  | c :: cs => do
    let form ← orUsage (OptionForm.lettered? forms c)
    match form.isSwitch, cs with
    | true, _ => readLetters forms (← progress.readOption form none) cs
    | false, [] => progress.readOption form none
    -- An equals sign is no part of the value.
    | false, '=' :: value | false, value => progress.readOption form (some (String.ofList value))

/-- Reads arguments of which none is an option. -/
def readFiles (progress : Progress) : List String → Except Refusal Progress
  | [] => progress.settle
  | text :: rest => do readFiles (← progress.await .file (some text)) rest

/-- Reads all arguments. -/
def readAll (forms : List OptionForm) (progress : Progress) :
    List String → Except Refusal Progress
  | [] => progress.settle
  | text :: rest => do
    match Argument.ofText text with
    -- Behind two dashes no argument is an option any more.
    | .escape => progress.readFiles rest
    | .long name value => readAll forms (← progress.readLong forms name value) rest
    | .letters letters => readAll forms (← progress.readLetters forms letters) rest
    | .plain text => readAll forms (← progress.readPlain text) rest

/-- Reads options up to a plain text that is no value. The answer is what is read, that text and
the arguments behind it. -/
def readUntilPlain (forms : List OptionForm) (progress : Progress) :
    List String → Except Refusal (Progress × String × List String)
  | [] => .error .usage
  | text :: rest => do
    match Argument.ofText text with
    | .escape => throw .usage
    | .long name value => readUntilPlain forms (← progress.readLong forms name value) rest
    | .letters letters => readUntilPlain forms (← progress.readLetters forms letters) rest
    | .plain text =>
      match progress.pending with
      | some ⟨_, none⟩ => readUntilPlain forms (← progress.readPlain text) rest
      | _ => return (progress, text, rest)

end Progress

end CodeAssist.CommandLine
