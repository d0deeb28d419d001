import CodeAssist.Prompt.Draft
import CodeAssist.Proofs.Tokens.Truncation

/-!
# The budget of a prompt

A prompt keeps to its limit of tokens, whatever the template does with the content and whether or
not measures add up.

The budgets divide the limit without rest (`budgets_add`): each of them is cut off at what the ones
before it leave. That bounds the parts, but not the finished prompt, since a template may repeat the
content and a text may measure more than its parts. The ceiling is therefore the work of
`Draft.trim` alone, which ends well only where the limit holds (`estimate_wrapped_trim_le`).

Trimming ends because of the truncation law. A round that goes on asks for less than the content
measures, and what it keeps measures at most that (`estimate_lt_of_round`). So a content of `n`
tokens is trimmed in at most `n + 1` rounds (`trimChecked?_eq`). It ends well as soon as the
template and the suffix keep to the limit together (`exists_trim_of_le`): the only failure is a
content that measures nothing, which is the empty one, and then the template stands alone.

`finishChecked?` builds a prompt with subtractions that have no value below zero and with a bound on
the rounds. It always has a value, and that is the prompt (`finishChecked?_eq`).
-/

namespace CodeAssist.Prompt

open CodeAssist.Tokens (Measured Side Strategy)
open CodeAssist.Tree (Parser)

/-- What a prompt measures as sent; without a suffix the model is sent an empty one. -/
def measure (strategy : Strategy) (prompt : Prompt) : Nat :=
  strategy.estimate prompt.before + strategy.estimate (prompt.after.getD "")

namespace Draft

/-! ### Starting -/

section Starting

variable {strategy : Strategy} {settings : PromptSettings} {limit : Nat} {fileName : String}
  {language : Option Language} {template : Template}

/-- Where a template exceeds the limit no draft is started. -/
theorem start_of_lt (h : limit < strategy.estimate (template.render "" fileName language)) :
    start strategy settings limit fileName language template =
      .error (.budgetExceeded (strategy.estimate (template.render "" fileName language)) limit) :=
  dif_neg (Nat.not_le_of_lt h)

/-- Where a template keeps to the limit a draft without code is started. -/
theorem start_of_le (h : strategy.estimate (template.render "" fileName language) ≤ limit) :
    start strategy settings limit fileName language template =
      .ok ⟨strategy, settings, limit, fileName, language, template, h, "", none, [], []⟩ :=
  dif_pos h

end Starting

/-! ### Dividing the limit -/

variable (draft : Draft)

/-- The imports take no more than the template leaves. -/
theorem importsBudget_le : draft.importsBudget ≤ draft.available :=
  Nat.min_le_right ..

/-- The signatures take no more than the imports leave. -/
theorem signaturesBudget_le : draft.signaturesBudget ≤ draft.available - draft.importsBudget :=
  Nat.min_le_right ..

/-- **The budgets divide the limit.** -/
theorem budgets_add :
    draft.reserved + draft.importsBudget + draft.signaturesBudget + draft.bodyBudget =
      draft.limit := by
  have hreserved : draft.reserved ≤ draft.limit := draft.reserved_le
  have himports := draft.importsBudget_le
  have hsignatures := draft.signaturesBudget_le
  have havailable : draft.available = draft.limit - draft.reserved := rfl
  have hbody : draft.bodyBudget =
      draft.available - draft.importsBudget - draft.signaturesBudget := rfl
  omega

/-- The suffix keeps to its budget. -/
theorem suffixTokens_le (parser : Parser) : draft.suffixTokens parser ≤ draft.suffixBudget := by
  unfold suffixTokens suffix?
  cases draft.after with
  | none => exact Nat.zero_le _
  | some after => exact Strategy.tokens_truncate_le ..

/-- The tokens of the suffix are what its text measures. -/
theorem estimate_suffixText (parser : Parser) :
    draft.strategy.estimate (draft.suffixText parser) = draft.suffixTokens parser := by
  unfold suffixText suffixTokens suffix?
  cases draft.after with
  | none => exact draft.strategy.estimate_empty
  | some after => exact Strategy.estimate_truncate ..

/-! ### Trimming -/

/-- **Trimming ends below the limit.** -/
theorem estimate_wrapped_trim_le {used : Nat} {content trimmed : String}
    (h : draft.trim used content = .ok trimmed) :
    draft.strategy.estimate (draft.wrapped trimmed) + used ≤ draft.limit := by
  fun_induction draft.trim used content with
  | case1 content total hfits =>
    obtain rfl : content = trimmed := by simpa using h
    exact hfits
  | case2 => simp at h
  | case3 content total tokens hfits hempty ih => exact ih h

/-- **Trimming ends well** where the template alone leaves room for the tokens used besides. -/
theorem exists_trim_of_le {used : Nat} (h : draft.reserved + used ≤ draft.limit)
    (content : String) : ∃ trimmed, draft.trim used content = .ok trimmed := by
  fun_induction draft.trim used content with
  | case1 content => exact ⟨content, rfl⟩
  | case2 content total tokens hfits hempty =>
    -- without tokens there is no content, and then the prompt is the template
    obtain rfl : content = "" := draft.strategy.estimate_eq_zero_iff.1 hempty
    exact absurd (show total ≤ draft.limit from h) hfits
  | case3 content total tokens hfits hempty ih => exact ih

/-! ### Rounds of trimming -/

/-- What a round of trimming comes to. -/
inductive Round where
  /-- Trimming ends with a result. -/
  | ends (result : Except Error String)
  /-- Trimming goes on with what is left of the content. -/
  | goesOn (content : String)

/-- One round of trimming. -/
def round (used : Nat) (content : String) : Round :=
  if draft.strategy.estimate (draft.wrapped content) + used ≤ draft.limit then .ends (.ok content)
  else if draft.strategy.estimate content = 0 then
    .ends (.error (.budgetExceeded
      (draft.strategy.estimate (draft.wrapped content) + used) draft.limit))
  else
    .goesOn (draft.strategy.truncate content (draft.strategy.estimate content -
      (draft.strategy.estimate (draft.wrapped content) + used - draft.limit)) .left).text

/-- Trimming is a round, and then trimming what the round leaves. -/
theorem trim_eq_round (used : Nat) (content : String) :
    draft.trim used content =
      match draft.round used content with
      | .ends result => result
      | .goesOn kept => draft.trim used kept := by
  rw [trim, round]
  split
  · rfl
  · split <;> rfl

/-- **A round that goes on lowers the token count of the content.** -/
theorem estimate_lt_of_round {used : Nat} {content kept : String}
    (h : draft.round used content = .goesOn kept) :
    draft.strategy.estimate kept < draft.strategy.estimate content := by
  unfold round at h
  split_ifs at h with hfits hempty
  obtain rfl := Round.goesOn.inj h
  -- less is asked for than the content measures
  refine Nat.lt_of_le_of_lt (Strategy.estimate_truncate_le ..) ?_
  omega

/-- One round of trimming. It has no value where a subtraction would go below zero. -/
def roundChecked? (used : Nat) (content : String) : Option Round :=
  let total := draft.strategy.estimate (draft.wrapped content) + used
  let tokens := draft.strategy.estimate content
  if total ≤ draft.limit then some (.ends (.ok content))
  else if tokens = 0 then some (.ends (.error (.budgetExceeded total draft.limit)))
  else do
    let excess ← Nat.psub total draft.limit
    -- this subtraction is meant to stop at zero
    let kept ← draft.strategy.truncateChecked? content (tokens - excess) .left
    return .goesOn kept.text

/-- Rounds of trimming, at most `rounds` of them. -/
def trimChecked? (used : Nat) : (rounds : Nat) → String → Option (Except Error String)
  | 0, _ => none
  | rounds + 1, content => do
    match ← draft.roundChecked? used content with
    | .ends result => some result
    | .goesOn kept => trimChecked? used rounds kept

/-- The excess over the limit is subtracted only where there is one. -/
theorem roundChecked?_eq (used : Nat) (content : String) :
    draft.roundChecked? used content = some (draft.round used content) := by
  simp only [roundChecked?, round]
  split
  · rfl
  · next hover =>
    have hexcess := Nat.psub_eq_sub (Nat.le_of_not_le hover)
    split
    · rfl
    · simp only [hexcess, Strategy.truncateChecked?_eq, Option.bind_eq_bind, Option.bind_some]
      rfl

/-- **Trimming ends in time.** The content measures less after each round, so there are at most as
many rounds as it has tokens, and one more that ends. -/
theorem trimChecked?_eq {used rounds : Nat} {content : String}
    (h : draft.strategy.estimate content < rounds) :
    draft.trimChecked? used rounds content = some (draft.trim used content) := by
  -- one round lowers the estimate, so the rounds left stay above it
  induction rounds generalizing content with
  | zero => omega
  | succ rounds ih =>
    rw [trimChecked?, roundChecked?_eq, trim_eq_round, Option.bind_eq_bind, Option.bind_some]
    cases hround : draft.round used content with
    | ends result => rfl
    | goesOn kept =>
      have hless := draft.estimate_lt_of_round hround
      exact ih (by omega)

/-! ### The finished prompt -/

variable {draft}

/-- A finished prompt is the template around what trimming leaves, with the suffix as sent. -/
theorem exists_trim_of_finish {parser : Parser} {prompt : Prompt}
    (h : draft.finish parser = .ok prompt) :
    ∃ trimmed, draft.trim (draft.suffixTokens parser) (draft.content parser) = .ok trimmed ∧
      prompt.before = draft.wrapped trimmed ∧
      prompt.after = (draft.suffix? parser).map Measured.text := by
  unfold finish at h
  cases htrim : draft.trim (draft.suffixTokens parser) (draft.content parser) with
  | error e => rw [htrim] at h; cases h
  | ok trimmed =>
    rw [htrim] at h
    obtain rfl := Except.ok.inj h
    exact ⟨trimmed, rfl, rfl, rfl⟩

/-- **A finished prompt keeps to the limit.** -/
theorem measure_le_of_finish {parser : Parser} {prompt : Prompt}
    (h : draft.finish parser = .ok prompt) : prompt.measure draft.strategy ≤ draft.limit := by
  obtain ⟨trimmed, htrim, hbefore, hafter⟩ := exists_trim_of_finish h
  have hsuffix : draft.strategy.estimate (prompt.after.getD "") = draft.suffixTokens parser := by
    rw [hafter]
    exact draft.estimate_suffixText parser
  rw [measure, hbefore, hsuffix]
  exact draft.estimate_wrapped_trim_le htrim

/-- **A prompt is finished** where the suffix as sent keeps to the budget of the code. -/
theorem exists_finish_of_le {parser : Parser} (h : draft.suffixTokens parser ≤ draft.bodyBudget) :
    ∃ prompt, draft.finish parser = .ok prompt := by
  have hroom : draft.reserved + draft.suffixTokens parser ≤ draft.limit := by
    have hsum := draft.budgets_add
    omega
  obtain ⟨trimmed, htrim⟩ := draft.exists_trim_of_le hroom (draft.content parser)
  rw [finish, htrim]
  exact ⟨_, rfl⟩

/-- A raw prompt is sent as it is, or exceeds the limit. -/
theorem finishRaw_eq_ok_iff {raw : String} :
    (∃ prompt, draft.finishRaw raw = .ok prompt) ↔ draft.strategy.estimate raw ≤ draft.limit := by
  simp only [finishRaw]
  split
  · next h => exact ⟨fun _ => h, fun _ => ⟨_, rfl⟩⟩
  · next h => exact ⟨fun ⟨_, hprompt⟩ => by simp at hprompt, fun h' => absurd h' h⟩

/-- A raw prompt keeps to the limit. -/
theorem measure_le_of_finishRaw {raw : String} {prompt : Prompt}
    (h : draft.finishRaw raw = .ok prompt) : prompt.measure draft.strategy ≤ draft.limit := by
  have hraw := finishRaw_eq_ok_iff.1 ⟨prompt, h⟩
  simp only [finishRaw, if_pos hraw] at h
  obtain rfl := Except.ok.inj h
  rw [measure, Option.getD_none, Strategy.estimate_empty, Nat.add_zero]
  exact hraw

/-! ### Building with checked subtraction -/

variable (draft)

/-- The suffix before truncation. -/
def suffixCandidateChecked? (parser : Parser) (after : String) : Option String :=
  if !draft.settings.truncateSuffixToContext || draft.before = "" then some after
  else do
    let cursor ← Text.endPointChecked? draft.before.toList
    return ((tryParse parser (draft.before ++ after) draft.language).ready?.bind fun tree =>
      Analysis.restOfAnchor? tree cursor Analysis.defaultCeiling).getD after

/-- The suffix as sent, given the tokens for the code before and behind the cursor. -/
def suffixChecked? (parser : Parser) (bodyBudget : Nat) : Option (Option Measured) :=
  match draft.after with
  | none => some none
  | some after => do
    let candidate ← draft.suffixCandidateChecked? parser after
    let budget := share bodyBudget draft.settings.suffixPercent
    return some (← draft.strategy.truncateChecked? candidate budget .right)

/-- The prompt, built with subtractions that have no value below zero and with as many rounds of
trimming as the content has tokens, and one more. -/
def finishChecked? (parser : Parser) : Option (Except Error Prompt) := do
  let available ← Nat.psub draft.limit draft.reserved
  let importsBudget := min (min (Tokens.total (draft.imports.map Measured.tokens))
    (share draft.limit draft.settings.importsPercent)) available
  let unimported ← Nat.psub available importsBudget
  let signaturesBudget := min (min (Tokens.total (draft.signatures.map Measured.tokens))
    draft.settings.maxSignatureTokens) unimported
  let bodyBudget ← Nat.psub unimported signaturesBudget
  let suffix ← draft.suffixChecked? parser bodyBudget
  let used := (suffix.map Measured.tokens).getD 0
  let suffixText := (suffix.map Measured.text).getD ""
  -- this subtraction is meant to stop at zero
  let body ← draft.strategy.truncateChecked? draft.before (bodyBudget - used) .left
  let signatures := chooseExtras draft.signatures signaturesBudget [body.text, suffixText]
  let signedBody := block signatures ++ body.text
  let imports := chooseExtras draft.imports importsBudget [signedBody, suffixText]
  let content := block imports ++ signedBody
  let trimmed ← draft.trimChecked? used (draft.strategy.estimate content + 1) content
  return do
    let content ← trimmed
    return ⟨draft.wrapped content, suffix.map Measured.text, draft.metadata parser content⟩

/-- The column of the cursor is found without going below zero. -/
theorem suffixCandidateChecked?_eq (parser : Parser) (after : String) :
    draft.suffixCandidateChecked? parser after = some (draft.suffixCandidate parser after) := by
  unfold suffixCandidateChecked? suffixCandidate
  split
  · rfl
  · rw [Text.endPointChecked?_eq]
    rfl

/-- The suffix is cut without going below zero. -/
theorem suffixChecked?_eq (parser : Parser) :
    draft.suffixChecked? parser draft.bodyBudget = some (draft.suffix? parser) := by
  unfold suffixChecked? suffix?
  cases draft.after with
  | none => rfl
  | some after =>
    simp only [suffixCandidateChecked?_eq, Strategy.truncateChecked?_eq, Option.bind_eq_bind,
      Option.bind_some]
    rfl

/-- **Building never goes below zero** and ends within its rounds. -/
theorem finishChecked?_eq (parser : Parser) :
    draft.finishChecked? parser = some (draft.finish parser) := by
  have havailable : Nat.psub draft.limit draft.reserved = some draft.available :=
    Nat.psub_eq_sub draft.reserved_le
  have himports : Nat.psub draft.available draft.importsBudget =
      some (draft.available - draft.importsBudget) :=
    Nat.psub_eq_sub draft.importsBudget_le
  have hbody : Nat.psub (draft.available - draft.importsBudget) draft.signaturesBudget =
      some draft.bodyBudget :=
    Nat.psub_eq_sub draft.signaturesBudget_le
  -- each checked step has the value of the plain one, in the order of the program
  rw [finishChecked?, havailable, Option.bind_eq_bind, Option.bind_some]
  change (Nat.psub draft.available draft.importsBudget).bind _ = _
  rw [himports, Option.bind_some]
  change (Nat.psub (draft.available - draft.importsBudget) draft.signaturesBudget).bind _ = _
  rw [hbody, Option.bind_some]
  change (draft.suffixChecked? parser draft.bodyBudget).bind _ = _
  rw [suffixChecked?_eq, Option.bind_some]
  change (draft.strategy.truncateChecked? draft.before _ .left).bind _ = _
  rw [Strategy.truncateChecked?_eq, Option.bind_some]
  change (draft.trimChecked? (draft.suffixTokens parser)
    (draft.strategy.estimate (draft.content parser) + 1) (draft.content parser)).bind _ = _
  rw [draft.trimChecked?_eq (Nat.lt_succ_self _)]
  rfl

/-! ### The ceiling -/

/-- **The budget invariant.** A prompt is built in a bounded number of rounds and without going
below zero, every round of trimming that goes on lowers the token count of the content, and what is
built, around code or raw, keeps to the limit. -/
theorem build_within_limit (draft : Draft) (parser : Parser) :
    draft.finishChecked? parser = some (draft.finish parser) ∧
      (∀ used content kept, draft.roundChecked? used content = some (.goesOn kept) →
        draft.strategy.estimate kept < draft.strategy.estimate content) ∧
      (∀ prompt, draft.finish parser = .ok prompt →
        prompt.measure draft.strategy ≤ draft.limit) ∧
      ∀ raw prompt, draft.finishRaw raw = .ok prompt →
        prompt.measure draft.strategy ≤ draft.limit := by
  refine ⟨draft.finishChecked?_eq parser, ?_, fun _ => measure_le_of_finish,
    fun _ _ => measure_le_of_finishRaw⟩
  intro used content kept h
  rw [roundChecked?_eq] at h
  exact draft.estimate_lt_of_round (Option.some.inj h)

/-- A draft whose template writes the content twice, so that trimming has to go on. -/
def echoing : Draft where
  strategy := .characters 1 Nat.one_pos
  settings := { suffixPercent := 0.5 }
  limit := 12
  fileName := "main.py"
  language := some .python
  template := .custom "\x7bprefix\x7d\x7bprefix\x7d"
  reserved_le := by decide +kernel
  before := "abcdefgh"
  after := some "xyz"
  imports := []
  signatures := []

/-- Eight characters, written twice, and a suffix of three exceed twelve tokens by seven, so one
character is kept; a raw prompt of four tokens stands as it is. -/
theorem build_within_limit_echoing :
    (∃ prompt, echoing.finish (fun _ _ => none) = .ok prompt ∧ prompt.before = "hh" ∧
      prompt.measure echoing.strategy ≤ 12) ∧
    echoing.roundChecked? 3 "abcdefgh" = some (.goesOn "h") ∧
    echoing.strategy.estimate "h" < echoing.strategy.estimate "abcdefgh" ∧
    ∃ prompt, echoing.finishRaw "code" = .ok prompt ∧ prompt.measure echoing.strategy ≤ 12 := by
  obtain ⟨-, hround, hfinish, hraw⟩ := build_within_limit echoing fun _ _ => none
  have hbefore :
      (echoing.finish fun _ _ => none).toOption.map Prompt.before = some "hh" := by
    decide +kernel
  have hgoesOn : echoing.roundChecked? 3 "abcdefgh" = some (.goesOn "h") := by
    rw [roundChecked?_eq, round, if_neg (by decide +kernel), if_neg (by decide +kernel)]
    exact congrArg (fun kept => some (Round.goesOn kept)) (by decide +kernel)
  refine ⟨?_, hgoesOn, hround 3 _ _ hgoesOn, ?_⟩
  · cases hprompt : echoing.finish fun _ _ => none with
    | error e => rw [hprompt] at hbefore; cases hbefore
    | ok prompt =>
      rw [hprompt] at hbefore
      exact ⟨prompt, rfl, Option.some.inj hbefore, hfinish prompt hprompt⟩
  · obtain ⟨prompt, hprompt⟩ := finishRaw_eq_ok_iff.2
      (show echoing.strategy.estimate "code" ≤ echoing.limit by decide +kernel)
    exact ⟨prompt, hprompt, hraw _ prompt hprompt⟩

end Draft

end CodeAssist.Prompt
