import CodeAssist.CommandLine.Program
import CodeAssist.Proofs.Json.RoundTrip
import CodeAssist.Proofs.Suggestion.Failure
import CodeAssist.Proofs.Text.Points

/-!
# The prompt that is shown is the prompt that is sent

The command that prints a prompt has its own chain of calls: it splits the source at the cursor,
chooses the template and collects the parts from the source, while a use case is handed the two
parts. Both come to the same prompt (`Situation.promptAt_eq`), because splitting loses nothing: the
parts that the use case puts together again are the source that the command reads
(`Situation.aroundCursor_eq`).

So what the command prints can be read, and shows what the use case sends; and where the command
fails for an exceeded budget, the use case fails alike and sends nothing
(`Situation.run_shows_sent`).
-/

namespace CodeAssist

open CodeAssist.CommandLine (Environment)
open CodeAssist.Prompt (Draft)
open CodeAssist.Text (Point)
open CodeAssist.Tokens (Strategy)
open CodeAssist.Tree (Parser)

/-! ### What is sent -/

/-- A prompt has a second part exactly where there is code behind the cursor. -/
theorem Prompt.Draft.isSome_after_of_collected {draft : Draft} {parser : Parser} {before : String}
    {after : Option String} {importSource signatureSource : String} {prompt : Prompt}
    (h : (((draft.setCode before after).takeImports parser importSource).takeSignatures parser
      signatureSource).finish parser = .ok prompt) : prompt.after.isSome = after.isSome := by
  obtain ⟨imports, signatures, hcollected⟩ :=
    draft.exists_collected parser before after importSource signatureSource
  rw [hcollected] at h
  obtain ⟨_, _, _, hafter⟩ := Draft.exists_trim_of_finish h
  rw [hafter, Option.isSome_map, Draft.suffix?, Option.isSome_map]

namespace Assistant

variable (assistant : Assistant)

/-- The use case at a cursor: generating code looks at what stands before it only. -/
def atCursor (generation : Bool) (before after fileName : String) : Exchange :=
  if generation then assistant.generate before fileName none none
  else assistant.complete before after fileName none

/-- The prompt of the use case at a cursor. -/
def promptAtCursor (generation : Bool) (before after fileName : String) : Except Error Prompt :=
  if generation then
    assistant.generationPrompt before fileName (Language.resolve? fileName none) none
  else assistant.completionPrompt before after fileName (Language.resolve? fileName none)

/-- The use case at a cursor asks with the prompt there. -/
theorem exists_atCursor_eq_ask (generation : Bool) (before after fileName : String) :
    ∃ clean, assistant.atCursor generation before after fileName =
      assistant.ask (assistant.promptAtCursor generation before after fileName)
        (Language.resolve? fileName none) clean := by
  cases generation with
  | true => exact ⟨_, rfl⟩
  | false => exact ⟨_, rfl⟩

/-- The prompt at a cursor has a second part exactly where a gap is to be filled. -/
theorem isSome_after {generation : Bool} {before after fileName : String} {prompt : Prompt}
    (h : assistant.promptAtCursor generation before after fileName = .ok prompt) :
    prompt.after.isSome = !generation := by
  -- both prompts are collected with the kind of their own template, which carries the suffix or not
  cases generation with
  | true =>
    change assistant.generationPrompt before fileName (Language.resolve? fileName none) none =
      .ok prompt at h
    unfold generationPrompt at h
    cases hdraft : assistant.draft fileName (Language.resolve? fileName none) .fence
      assistant.settings.prompt.generationTemplate with
    | error e => rw [hdraft] at h; cases h
    | ok draft =>
      rw [hdraft] at h
      exact Draft.isSome_after_of_collected h
  | false =>
    change assistant.completionPrompt before after fileName (Language.resolve? fileName none) =
      .ok prompt at h
    unfold completionPrompt at h
    cases hdraft : assistant.draft fileName (Language.resolve? fileName none) .header
      assistant.settings.prompt.completionTemplate with
    | error e => rw [hdraft] at h; cases h
    | ok draft =>
      rw [hdraft] at h
      exact Draft.isSome_after_of_collected h

end Assistant

/-! ### What is shown -/

/-- A printed text shows a prompt: it is an object with the two parts of the prompt, where a
generation has no second part, and with whatever is recorded of them. -/
def ShowsPrompt (out : String) (generation : Bool) (before after : String) : Prop :=
  ∃ metadata, Json.read? out = some (.object [("prefix", .text before),
    ("suffix", if generation then .null else .text after), ("metadata", metadata)])

/-- A printed prompt shows the prompt. -/
theorem showsPrompt_printed {prompt : Prompt} {generation : Bool}
    (h : prompt.after.isSome = !generation) :
    ShowsPrompt (Environment.printed (Codec.encodePromptRecord prompt)) generation prompt.before
      (prompt.after.getD "") := by
  -- the prompt is printed over several lines, with one line break behind it
  have hprinted : Environment.printed (Codec.encodePromptRecord prompt) =
      String.ofList (Json.renderAt true 0 (Codec.encodePromptRecord prompt) ++ ['\n']) := by
    simp [Environment.printed, Json.pretty]
  have hread := Json.read?_render true (Codec.encodePromptRecord prompt) ['\n']
    (Json.isSpace_of_mem_singleton rfl)
  rw [← hprinted] at hread
  refine ⟨(Codec.encodeMetadata prompt.metadata).reread, ?_⟩
  rw [hread]
  -- the members are looked up by their names, which are the same in both kinds of prompt
  cases generation <;> cases hafter : prompt.after <;>
    simp_all [Codec.encodePromptRecord, Json.Value.reread, Json.Value.rereadMembers,
      Json.Value.optional]

/-! ### The command at a cursor -/

/-- What the command that prints a prompt finds: the settings, a source whose first part ends at the
cursor, and the token strategy. -/
structure Situation (environment : Environment) (config : Option String) (file : String)
    (cursor : Point) where
  settings : Settings
  before : String
  after : String
  strategy : Strategy
  settings_eq : environment.settings config = .ok settings
  source_eq : environment.source file = .ok (before ++ after)
  cursor_eq : Text.endPoint before.toList = cursor
  strategy_eq : Strategy.ofSettings environment.encoders settings.tokens = .ok strategy

/-- A chain of calls that succeeds has succeeded at its first call. -/
theorem exists_of_bind_eq_ok {α β : Type} {x : Except Error α} {f : α → Except Error β} {b : β}
    (h : x >>= f = .ok b) : ∃ a, x = .ok a ∧ f a = .ok b := by
  cases x with
  | error e => cases h
  | ok a => exact ⟨a, rfl, h⟩

/-- A source that is split at a cursor has a first part that ends there. -/
theorem eq_append_of_aroundCursor {source before after : String} {cursor : Point}
    (h : Environment.aroundCursor source cursor = .ok (before, after)) :
    source = before ++ after ∧ Text.endPoint before.toList = cursor := by
  unfold Environment.aroundCursor at h
  split at h
  · next hsplit =>
    cases h
    have hne : source.toList ≠ [] := fun hempty => by
      simp [hempty, Text.splitAtPoint?, Text.offsetAt?] at hsplit
    -- a text that was split is not empty, so the split is the one at the offset of the point
    obtain ⟨hsource, hend⟩ := (Text.splitAtPoint?_eq_some_iff hne).1 hsplit
    refine ⟨String.toList_inj.1 ?_, by rwa [String.toList_ofList]⟩
    rw [hsource, String.toList_append, String.toList_ofList, String.toList_ofList]
  · cases h

/-- Where the command prints something, it is in such a situation. -/
theorem nonempty_situation_of_run {environment : Environment} {config : Option String}
    {file : String} {cursor : Point} {generation : Bool} {out : String}
    (h : environment.run ⟨config, .prompt file cursor.row cursor.column generation⟩ = .ok out) :
    Nonempty (Situation environment config file cursor) := by
  obtain ⟨settings, hsettings, h⟩ := exists_of_bind_eq_ok h
  obtain ⟨source, hsource, h⟩ := exists_of_bind_eq_ok h
  obtain ⟨prompt, hprompt, -⟩ := exists_of_bind_eq_ok h
  obtain ⟨⟨before, after⟩, hparts, hprompt⟩ := exists_of_bind_eq_ok hprompt
  obtain ⟨strategy, hstrategy, -⟩ := exists_of_bind_eq_ok hprompt
  obtain ⟨rfl, hend⟩ := eq_append_of_aroundCursor hparts
  exact ⟨settings, before, after, strategy, hsettings, hsource, hend, hstrategy⟩

namespace Situation

variable {environment : Environment} {config : Option String} {file : String} {cursor : Point}
  (situation : Situation environment config file cursor)

/-- The assistant with these settings, for a model. -/
def assistant (model : Model) : Assistant :=
  ⟨environment.parser, situation.strategy, situation.settings, model⟩

/-- What the use case does with the two parts of the source. -/
def exchange (generation : Bool) (model : Model) : Exchange :=
  (situation.assistant model).atCursor generation situation.before situation.after
    (Environment.nameOf file)

/-- **Splitting loses nothing**: a source with any text in it is split into its two parts. -/
theorem aroundCursor_eq (hne : situation.before ++ situation.after ≠ "") :
    Environment.aroundCursor (situation.before ++ situation.after) cursor =
      .ok (situation.before, situation.after) := by
  have hchars : (situation.before ++ situation.after).toList ≠ [] :=
    fun h => hne (String.toList_eq_nil_iff.1 h)
  have hparts : Text.splitAtPoint? (situation.before ++ situation.after).toList cursor =
      some (situation.before.toList, situation.after.toList) :=
    (Text.splitAtPoint?_eq_some_iff hchars).2 ⟨String.toList_append, situation.cursor_eq⟩
  rw [Environment.aroundCursor, hparts]
  simp

/-- **Both chains of calls come to the same prompt.** The imports are taken from the whole source,
which is what the use case puts together again. -/
theorem promptAt_eq (hne : situation.before ++ situation.after ≠ "") (generation : Bool)
    (model : Model) :
    environment.promptAt situation.settings file (situation.before ++ situation.after) cursor
        generation =
      (situation.assistant model).promptAtCursor generation situation.before situation.after
        (Environment.nameOf file) := by
  unfold Environment.promptAt
  rw [situation.aroundCursor_eq hne, situation.strategy_eq]
  cases generation <;> rfl

/-- The command prints the prompt of the use case, or fails as that does. -/
theorem run_eq (hne : situation.before ++ situation.after ≠ "") (generation : Bool)
    (model : Model) :
    environment.run ⟨config, .prompt file cursor.row cursor.column generation⟩ =
      ((situation.assistant model).promptAtCursor generation situation.before situation.after
        (Environment.nameOf file)).map fun prompt =>
          Environment.printed (Codec.encodePromptRecord prompt) := by
  -- the settings and the source are those of the situation, whatever the model answers
  rw [← situation.promptAt_eq hne generation model]
  simp only [Environment.run, situation.settings_eq, situation.source_eq]
  change (do
    let prompt ← environment.promptAt situation.settings file
      (situation.before ++ situation.after) cursor generation
    return Environment.printed (Codec.encodePromptRecord prompt)) = _
  cases environment.promptAt situation.settings file (situation.before ++ situation.after) cursor
    generation <;> rfl

/-- In a source without text there is no cursor. -/
theorem run_of_empty (hempty : situation.before ++ situation.after = "") (generation : Bool) :
    environment.run ⟨config, .prompt file cursor.row cursor.column generation⟩ =
      .error (.invalidCursor cursor) := by
  simp only [Environment.run, situation.settings_eq, situation.source_eq, hempty]
  rfl

/-- **The command line and the use cases build the same prompt.** For every source and cursor in it,
and whatever the model: where the command prints something, that shows what the use case sends, and
where it fails because a budget is exceeded, so does the use case, which then sends nothing. -/
theorem run_shows_sent (generation : Bool) (model : Model) :
    (∀ out, environment.run ⟨config, .prompt file cursor.row cursor.column generation⟩ = .ok out →
      ∃ before after, (situation.exchange generation model).sent = [(before, after)] ∧
        ShowsPrompt out generation before after) ∧
    ∀ used limit, environment.run ⟨config, .prompt file cursor.row cursor.column generation⟩ =
        .error (.budgetExceeded used limit) →
      situation.exchange generation model = ⟨[], .error (.budgetExceeded used limit)⟩ := by
  -- an empty file has no position in it: the program refuses, so there is nothing to show
  by_cases hempty : situation.before ++ situation.after = ""
  · rw [situation.run_of_empty hempty]
    exact ⟨fun _ h => (by cases h), fun _ _ h => (by cases h)⟩
  -- the assistant asks the model for the very prompt that `promptAt` builds
  obtain ⟨clean, hask⟩ := (situation.assistant model).exists_atCursor_eq_ask generation
    situation.before situation.after (Environment.nameOf file)
  rw [situation.run_eq hempty generation model, exchange, hask]
  -- what the cases are about is that one prompt; both sides fail with it or are about its parts
  cases hprompt : (situation.assistant model).promptAtCursor generation situation.before
    situation.after (Environment.nameOf file) with
  -- a refusal reaches the output and the exchange as it is, and no model was asked
  | error e =>
    refine ⟨fun _ h => (by cases h), fun used limit h => ?_⟩
    cases h
    rfl
  -- one message was sent, and the output is the printed record of the same prompt
  | ok prompt =>
    refine ⟨fun out h => ?_, fun _ _ h => (by cases h)⟩
    cases h
    rw [Assistant.ask_ok]
    exact ⟨prompt.before, prompt.after.getD "", rfl,
      showsPrompt_printed (Assistant.isSome_after _ hprompt)⟩

/-- The only file is `a.txt`, with the text `ab`. -/
def lettersEnvironment : Environment where
  files := {
    entries := [(⟨.above 0, ["a.txt"]⟩, .node 0)]
    nodes _ := .file (.text "ab")
    obstacles := .none }
  parser _ _ := none
  encoders _ := .perByte

theorem source_lettersEnvironment : lettersEnvironment.source "a.txt" = .ok "ab" := by
  have htext : lettersEnvironment.files.readText? "a.txt" = some "ab" := by decide +kernel
  simp [Environment.source, htext]

/-- The cursor stands between the two letters, and the settings are the defaults. -/
def betweenLetters : Situation lettersEnvironment none "a.txt" ⟨0, 1⟩ where
  settings := {}
  before := "a"
  after := "b"
  strategy := .ofCharacters 4
  settings_eq := rfl
  source_eq := source_lettersEnvironment
  cursor_eq := by decide
  strategy_eq := rfl

/-- A model that always replies with the letter `c`. -/
def replyingC : Model :=
  .canned (.ok { text := "c", score := 0.0 })

/-- Between two letters the command prints the prompt that is sent, with `b` behind the cursor. -/
theorem run_shows_sent_betweenLetters :
    ∃ out before, lettersEnvironment.run ⟨none, .prompt "a.txt" 0 1 false⟩ = .ok out ∧
      (betweenLetters.exchange false replyingC).sent = [(before, "b")] ∧
      ShowsPrompt out false before "b" := by
  have hprints : (lettersEnvironment.run ⟨none, .prompt "a.txt" 0 1 false⟩).toOption.isSome := by
    decide +kernel
  -- the suffix is short enough to be compared as a text, and the prefix need not be
  have hafter : (betweenLetters.exchange false replyingC).sent.map Prod.snd = ["b"] := by
    decide +kernel
  cases hrun : lettersEnvironment.run ⟨none, .prompt "a.txt" 0 1 false⟩ with
  | error e => simp [hrun, Except.toOption] at hprints
  | ok out =>
    obtain ⟨before, after, hsent, hshows⟩ :=
      (betweenLetters.run_shows_sent false replyingC).1 out hrun
    obtain rfl : after = "b" := by simpa [hsent] using hafter
    exact ⟨out, before, rfl, hsent, hshows⟩

end Situation

end CodeAssist
