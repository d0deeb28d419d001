import CodeAssist.Proofs.Prompt.Budget
import CodeAssist.Suggestion

/-!
# When a use case fails

A use case is a function of the model that it asks. It fails only before it asks, and only because a
text that nobody may cut exceeds the limit: the template around nothing, or a raw prompt
(`FailureContract`). In every other case it asks the model once, with a prompt that keeps to the
limit, and what it answers depends on nothing else of the model.

The prompt's own failure, a content that cannot be trimmed further, does not come up once the
template fits. The suffix keeps to a share of what the template leaves, so template and suffix keep
to the limit together (`Draft.exists_finish_of_le`). Collecting code, imports and signatures
changes neither the limit nor the template (`Draft.exists_collected`).
-/

namespace CodeAssist

open CodeAssist.Prompt (Draft Template)
open CodeAssist.Tokens (Measured Strategy)
open CodeAssist.Tree (Parser)

/-! ### What collecting leaves alone -/

namespace Prompt.Draft

variable (draft : Draft)

/-- Taking imports sets the imports and nothing else. -/
theorem exists_takeImports (parser : Parser) (source : String) :
    ∃ imports, draft.takeImports parser source = { draft with imports } := by
  unfold takeImports
  split
  · exact ⟨draft.imports, rfl⟩
  · exact ⟨_, rfl⟩

/-- Taking signatures sets the signatures and nothing else. -/
theorem exists_takeSignatures (parser : Parser) (source : String) :
    ∃ signatures, draft.takeSignatures parser source = { draft with signatures } := by
  unfold takeSignatures
  split
  · exact ⟨_, rfl⟩
  · exact ⟨draft.signatures, rfl⟩

/-- **Collecting the parts** sets the code, the imports and the signatures and nothing else. -/
theorem exists_collected (parser : Parser) (before : String) (after : Option String)
    (importSource signatureSource : String) :
    ∃ imports signatures,
      ((draft.setCode before after).takeImports parser importSource).takeSignatures parser
        signatureSource = { draft with before, after, imports, signatures } := by
  obtain ⟨imports, himports⟩ := (draft.setCode before after).exists_takeImports parser importSource
  rw [himports]
  obtain ⟨signatures, hsignatures⟩ :=
    ({ draft.setCode before after with imports } : Draft).exists_takeSignatures parser
      signatureSource
  exact ⟨imports, signatures, hsignatures⟩

/-- Without code behind the cursor nothing is taken off the budget. -/
theorem suffixTokens_of_none {draft : Draft} (h : draft.after = none) (parser : Parser) :
    draft.suffixTokens parser = 0 := by
  simp [suffixTokens, suffix?, h]

/-- The budget of the code is part of the limit. -/
theorem bodyBudget_le : draft.bodyBudget ≤ draft.limit := by
  have hsum := draft.budgets_add
  omega

end Prompt.Draft

/-! ### The contract -/

/-- How a use case, as a function of the model, fails and answers. -/
structure FailureContract (strategy : Strategy) (limit : Nat) (language : Option Language)
    (refused : Prop) (run : Model → Exchange) : Prop where
  /-- It fails exactly where it is refused. -/
  fails_iff : ∀ model, (∃ e, (run model).result = .error e) ↔ refused
  /-- A refusal is an exceeded budget, and the model is not asked. -/
  refusal : refused → ∃ used, ∀ model, run model = ⟨[], .error (.budgetExceeded used limit)⟩
  /-- Otherwise the model is asked once, within the limit, and its answer decides the rest. An error
  of the model gives no suggestion. -/
  answer : ¬ refused → ∃ before after,
    strategy.estimate before + strategy.estimate after ≤ limit ∧
      ∃ suggest : Except ModelError Reply → Suggestion,
        (∀ e, suggest (.error e) = .empty language) ∧
          ∀ model, run model = ⟨[(before, after)], .ok (suggest (model before after))⟩

/-- What is made of the model's answer to a prompt. -/
def Assistant.suggestion (assistant : Assistant) (prompt : Prompt) (language : Option Language)
    (clean : String → String) : Except ModelError Reply → Suggestion
  | .error _ => .empty language
  | .ok reply =>
    let text := assistant.acceptedText reply
    ⟨if text = "" then text else clean text, reply.score, language, prompt.metadata⟩

/-- With a prompt the model is asked once. -/
theorem Assistant.ask_ok (assistant : Assistant) (prompt : Prompt) (language : Option Language)
    (clean : String → String) :
    assistant.ask (.ok prompt) language clean =
      ⟨[(prompt.before, prompt.after.getD "")], .ok (assistant.suggestion prompt language clean
        (assistant.model prompt.before (prompt.after.getD "")))⟩ := by
  simp only [ask]
  cases assistant.model prompt.before (prompt.after.getD "") <;> rfl

/-- **Asking with a prompt** meets the contract as soon as the prompt does: refused, it exceeds the
budget, and otherwise it keeps to the limit. -/
theorem FailureContract.of_ask {strategy : Strategy} {limit : Nat} {language : Option Language}
    {refused : Prop} (assistant : Assistant) (prompt : Except Error Prompt)
    (clean : String → String)
    (hrefused : refused → ∃ used, prompt = .error (.budgetExceeded used limit))
    (hprompt : ¬ refused → ∃ built, prompt = .ok built ∧ built.measure strategy ≤ limit) :
    FailureContract strategy limit language refused fun model =>
      { assistant with model }.ask prompt language clean := by
  -- the prompt is the same for every model, so one case decides for all of them
  by_cases h : refused
  · obtain ⟨used, rfl⟩ := hrefused h
    exact ⟨fun _ => ⟨fun _ => h, fun _ => ⟨_, rfl⟩⟩, fun _ => ⟨used, fun _ => rfl⟩,
      fun hnot => absurd h hnot⟩
  · obtain ⟨built, rfl, hmeasure⟩ := hprompt h
    -- what the model answers is cleaned, and an error of the model is an empty answer
    have hask : ∀ model, { assistant with model }.ask (.ok built) language clean =
        ⟨[(built.before, built.after.getD "")],
          .ok (assistant.suggestion built language clean
            (model built.before (built.after.getD "")))⟩ :=
      fun model => Assistant.ask_ok { assistant with model } built language clean
    refine ⟨fun model => ⟨fun ⟨e, he⟩ => ?_, fun hyes => absurd hyes h⟩,
      fun hyes => absurd hyes h, fun _ => ⟨built.before, built.after.getD "", hmeasure,
        assistant.suggestion built language clean, fun _ => rfl, hask⟩⟩
    rw [hask model] at he
    cases he

/-! ### The prompts -/

namespace Assistant

variable (assistant : Assistant)

/-- What the template of a use case measures on its own. -/
def overhead (fileName : String) (language : Option Language) (fallback : Template)
    (custom : Option String) : Nat :=
  assistant.strategy.estimate ((fallback.choose custom).render "" fileName language)

/-- What completing sends before all else. -/
abbrev completionOverhead (fileName : String) (language : Option Language) : Nat :=
  assistant.overhead fileName language .header assistant.settings.prompt.completionTemplate

/-- What generating sends before all else. -/
abbrev generationOverhead (fileName : String) (language : Option Language) : Nat :=
  assistant.overhead fileName language .fence assistant.settings.prompt.generationTemplate

variable {fileName : String} {language : Option Language}

/-- A template that exceeds the limit leaves no prompt for completing. -/
theorem completionPrompt_of_lt (before after : String)
    (h : assistant.settings.maxModelLen < assistant.completionOverhead fileName language) :
    assistant.completionPrompt before after fileName language =
      .error (.budgetExceeded (assistant.completionOverhead fileName language)
        assistant.settings.maxModelLen) := by
  rw [completionPrompt, draft, Draft.start_of_lt h]
  rfl

/-- A template that exceeds the limit leaves no prompt for generating. -/
theorem generationPrompt_of_lt (before : String) (raw : Option String)
    (h : assistant.settings.maxModelLen < assistant.generationOverhead fileName language) :
    assistant.generationPrompt before fileName language raw =
      .error (.budgetExceeded (assistant.generationOverhead fileName language)
        assistant.settings.maxModelLen) := by
  rw [generationPrompt, draft, Draft.start_of_lt h]
  rfl

/-- **A completion's prompt** is built where the template fits and the suffix keeps to its share. -/
theorem exists_completionPrompt (before after : String)
    (hshare : ∀ tokens ≤ assistant.settings.maxModelLen,
      Draft.share tokens assistant.settings.prompt.suffixPercent ≤ tokens)
    (h : assistant.completionOverhead fileName language ≤ assistant.settings.maxModelLen) :
    ∃ prompt, assistant.completionPrompt before after fileName language = .ok prompt ∧
      prompt.measure assistant.strategy ≤ assistant.settings.maxModelLen := by
  let start : Draft := ⟨assistant.strategy, assistant.settings.prompt,
    assistant.settings.maxModelLen, fileName, language,
    Template.header.choose assistant.settings.prompt.completionTemplate, h, "", none, [], []⟩
  obtain ⟨imports, signatures, hcollected⟩ := start.exists_collected assistant.parser before
    (some after) (before ++ after) after
  let collected : Draft := { start with before, after := some after, imports, signatures }
  have hprompt : assistant.completionPrompt before after fileName language =
      collected.finish assistant.parser := by
    have hstart : assistant.draft fileName language .header
        assistant.settings.prompt.completionTemplate = .ok start := Draft.start_of_le h
    -- the template fits, so the draft can be started
    rw [completionPrompt, hstart]
    exact congrArg (Draft.finish · assistant.parser) hcollected
  -- the suffix keeps to its budget, and its budget is a share of the code's
  have hsuffix : collected.suffixTokens assistant.parser ≤ collected.bodyBudget :=
    Nat.le_trans (collected.suffixTokens_le assistant.parser)
      (hshare collected.bodyBudget collected.bodyBudget_le)
  obtain ⟨prompt, hfinish⟩ := Draft.exists_finish_of_le hsuffix
  exact ⟨prompt, hprompt.trans hfinish, Draft.measure_le_of_finish hfinish⟩

/-- **A generation's prompt** is built where the template fits and no raw prompt is too long. -/
theorem exists_generationPrompt (before : String) (raw : Option String)
    (h : assistant.generationOverhead fileName language ≤ assistant.settings.maxModelLen)
    (hraw : ∀ text, raw = some text →
      assistant.strategy.estimate text ≤ assistant.settings.maxModelLen) :
    ∃ prompt, assistant.generationPrompt before fileName language raw = .ok prompt ∧
      prompt.measure assistant.strategy ≤ assistant.settings.maxModelLen := by
  let start : Draft := ⟨assistant.strategy, assistant.settings.prompt,
    assistant.settings.maxModelLen, fileName, language,
    Template.fence.choose assistant.settings.prompt.generationTemplate, h, "", none, [], []⟩
  have hstart : assistant.draft fileName language .fence
      assistant.settings.prompt.generationTemplate = .ok start := Draft.start_of_le h
  -- a raw prompt is measured as it is; any other is built like that of a completion, with no suffix
  cases raw with
  | some text =>
    have hprompt : assistant.generationPrompt before fileName language (some text) =
        start.finishRaw text := by
      rw [generationPrompt, hstart]
      rfl
    obtain ⟨prompt, hfinish⟩ := Draft.finishRaw_eq_ok_iff.2
      (show start.strategy.estimate text ≤ start.limit from hraw text rfl)
    exact ⟨prompt, hprompt.trans hfinish, Draft.measure_le_of_finishRaw hfinish⟩
  | none =>
    obtain ⟨imports, signatures, hcollected⟩ := start.exists_collected assistant.parser before
      none before before
    let collected : Draft := { start with before, after := none, imports, signatures }
    have hprompt : assistant.generationPrompt before fileName language none =
        collected.finish assistant.parser := by
      rw [generationPrompt, hstart]
      exact congrArg (Draft.finish · assistant.parser) hcollected
    -- without a suffix nothing is taken of the code's budget
    have hsuffix : collected.suffixTokens assistant.parser ≤ collected.bodyBudget := by
      rw [Draft.suffixTokens_of_none rfl]
      exact Nat.zero_le _
    obtain ⟨prompt, hfinish⟩ := Draft.exists_finish_of_le hsuffix
    exact ⟨prompt, hprompt.trans hfinish, Draft.measure_le_of_finish hfinish⟩

/-- A raw prompt that exceeds the limit leaves no prompt for generating. -/
theorem generationPrompt_of_raw (before : String) {text : String}
    (h : assistant.generationOverhead fileName language ≤ assistant.settings.maxModelLen)
    (hraw : assistant.settings.maxModelLen < assistant.strategy.estimate text) :
    assistant.generationPrompt before fileName language (some text) =
      .error (.budgetExceeded (assistant.strategy.estimate text)
        assistant.settings.maxModelLen) := by
  rw [generationPrompt, draft, Draft.start_of_le h]
  exact if_neg (Nat.not_le_of_lt hraw)

/-! ### The use cases -/

variable (before after fileName : String) (editorId raw : Option String)

/-- **Completing** is refused only for the template. -/
theorem complete_contract
    (hshare : ∀ tokens ≤ assistant.settings.maxModelLen,
      Draft.share tokens assistant.settings.prompt.suffixPercent ≤ tokens) :
    FailureContract assistant.strategy assistant.settings.maxModelLen
      (Language.resolve? fileName editorId)
      (assistant.settings.maxModelLen <
        assistant.completionOverhead fileName (Language.resolve? fileName editorId))
      fun model => { assistant with model }.complete before after fileName editorId := by
  -- the prompt does not depend on the model
  let site : Cleanup.CompletionSite :=
    ⟨assistant.parser, before, after, Language.resolve? fileName editorId,
      assistant.settings.completions, assistant.settings.analysis.minBlockLines⟩
  exact .of_ask assistant _ site.clean
    (fun h => ⟨_, assistant.completionPrompt_of_lt before after h⟩)
    fun h => assistant.exists_completionPrompt before after hshare (Nat.not_lt.1 h)

/-- **Generating** is refused for the template or for a raw prompt. -/
theorem generate_contract :
    FailureContract assistant.strategy assistant.settings.maxModelLen
      (Language.resolve? fileName editorId)
      (assistant.settings.maxModelLen <
          assistant.generationOverhead fileName (Language.resolve? fileName editorId) ∨
        ∃ text, raw = some text ∧
          assistant.settings.maxModelLen < assistant.strategy.estimate text)
      fun model => { assistant with model }.generate before fileName editorId raw := by
  refine .of_ask assistant
    (assistant.generationPrompt before fileName (Language.resolve? fileName editorId) raw)
    (Cleanup.cleanGeneration before assistant.settings.generations)
    (fun h => ?_) fun h => ?_
  · -- the template is measured first
    rcases Nat.lt_or_ge assistant.settings.maxModelLen
      (assistant.generationOverhead fileName (Language.resolve? fileName editorId)) with hlt | hge
    · exact ⟨_, assistant.generationPrompt_of_lt before raw hlt⟩
    · obtain hlt | ⟨text, rfl, htext⟩ := h
      · exact absurd hlt (Nat.not_lt.2 hge)
      · exact ⟨_, assistant.generationPrompt_of_raw before hge htext⟩
  · obtain ⟨htemplate, hraw⟩ := not_or.1 h
    exact assistant.exists_generationPrompt before raw (Nat.not_lt.1 htemplate)
      fun text htext => Nat.le_of_not_lt fun hlong => hraw ⟨text, htext, hlong⟩

/-- **The failure contract.** Completing fails exactly where its template exceeds the limit, and
generating exactly where its template or a raw prompt does. The model is then not asked; otherwise
it is asked once, within the limit. -/
theorem fails_only_over_budget
    (hshare : ∀ tokens ≤ assistant.settings.maxModelLen,
      Draft.share tokens assistant.settings.prompt.suffixPercent ≤ tokens) :
    FailureContract assistant.strategy assistant.settings.maxModelLen
        (Language.resolve? fileName editorId)
        (assistant.settings.maxModelLen <
          assistant.completionOverhead fileName (Language.resolve? fileName editorId))
        (fun model => { assistant with model }.complete before after fileName editorId) ∧
      FailureContract assistant.strategy assistant.settings.maxModelLen
        (Language.resolve? fileName editorId)
        (assistant.settings.maxModelLen <
            assistant.generationOverhead fileName (Language.resolve? fileName editorId) ∨
          ∃ text, raw = some text ∧
            assistant.settings.maxModelLen < assistant.strategy.estimate text)
        fun model => { assistant with model }.generate before fileName editorId raw :=
  ⟨assistant.complete_contract before after fileName editorId hshare,
    assistant.generate_contract before fileName editorId raw⟩

/-- An assistant with room for twenty tokens of four characters. -/
def narrow : Assistant where
  parser _ _ := none
  strategy := .ofCharacters 4
  settings := { maxModelLen := 20 }
  model := .canned (.error (.connection "refused"))

/-- The comment for a short file name takes sixteen tokens, so completing goes through, and an
unreachable model gives no suggestion; a raw prompt of twenty-one tokens is refused. -/
theorem fails_only_over_budget_narrow :
    (∃ sent, narrow.complete "x = " "" "a.py" none = ⟨[sent], .ok (.empty (some .python))⟩) ∧
      ∃ used, narrow.generate "x = " "a.py" none (some ("".pushn 'x' 81)) =
        ⟨[], .error (.budgetExceeded used 20)⟩ := by
  have hshare : ∀ tokens ≤ narrow.settings.maxModelLen,
      Draft.share tokens narrow.settings.prompt.suffixPercent ≤ tokens := by decide +kernel
  have hresolve : Language.resolve? "a.py" none = some .python := by decide +kernel
  obtain ⟨hcomplete, hgenerate⟩ :=
    narrow.fails_only_over_budget "x = " "" "a.py" none (some ("".pushn 'x' 81)) hshare
  rw [hresolve] at hcomplete hgenerate
  constructor
  -- the model refuses the connection, which the program answers by an empty suggestion
  · obtain ⟨before, after, -, suggest, hempty, hanswer⟩ := hcomplete.answer (by decide +kernel)
    have hrun := hanswer narrow.model
    rw [show narrow.model before after = .error (.connection "refused") from rfl, hempty] at hrun
    exact ⟨(before, after), hrun⟩
  -- the raw prompt has a character too many for the limit
  · obtain ⟨used, hrun⟩ := hgenerate.refusal (.inr ⟨_, rfl, by decide +kernel⟩)
    exact ⟨used, hrun narrow.model⟩

end Assistant

end CodeAssist
