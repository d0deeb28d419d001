import CodeAssist.Proofs.Prompt.Budget
import CodeAssist.Proofs.Prompt.Extras
import CodeAssist.Proofs.Prompt.Template
import CodeAssist.Proofs.Tokens.LongestFit

/-!
# Prompts that need no trimming

Counted by characters, a text measures at most what its parts measure: rounding up once is never
more than rounding up twice (`ceilDiv_add_le`). So the budgets bound the finished prompt as well as
its parts. Each accepted extra was measured with the line break behind it, which is how it stands in
its block (`estimate_block_le`); the template measures what was held back for it, as long as it
writes the content once (`Template.length_render_le`); and the code takes what the suffix leaves.
These are the shares of the limit (`Draft.budgets_add`), so the first round of trimming finds that
the limit holds.

Main statement: `Draft.finish_untrimmed`.
-/

namespace CodeAssist

open CodeAssist.Tokens (Measured Side Strategy)
open CodeAssist.Tree (Parser)

/-! ### Measures that add up -/

namespace Tokens

/-- Rounding up a sum is at most rounding up its parts. -/
theorem ceilDiv_add_le (m n : Nat) {d : Nat} (hd : 0 < d) :
    ceilDiv (m + n) d ≤ ceilDiv m d + ceilDiv n d := by
  have hm : m ≤ ceilDiv m d * d := (ceilDiv_le_iff hd).1 (Nat.le_refl _)
  have hn : n ≤ ceilDiv n d * d := (ceilDiv_le_iff hd).1 (Nat.le_refl _)
  refine (ceilDiv_le_iff hd).2 ?_
  rw [Nat.add_mul]
  omega

/-- A text that is no longer than two others measures no more than both. -/
theorem Strategy.estimate_le_add (perToken : Nat) {text a b : String}
    (h : text.toList.length ≤ a.toList.length + b.toList.length) :
    (ofCharacters perToken).estimate text ≤
      (ofCharacters perToken).estimate a + (ofCharacters perToken).estimate b := by
  have hpos : 0 < max perToken 1 := by omega
  calc ceilDiv text.toList.length (max perToken 1)
      ≤ ceilDiv (a.toList.length + b.toList.length) (max perToken 1) :=
        (ceilDiv_le_iff hpos).2 (Nat.le_trans h ((ceilDiv_le_iff hpos).1 (Nat.le_refl _)))
    _ ≤ ceilDiv a.toList.length (max perToken 1) + ceilDiv b.toList.length (max perToken 1) :=
        ceilDiv_add_le _ _ hpos

/-- **Measures are subadditive** where characters are counted. -/
theorem Strategy.estimate_append_le (perToken : Nat) (a b : String) :
    (ofCharacters perToken).estimate (a ++ b) ≤
      (ofCharacters perToken).estimate a + (ofCharacters perToken).estimate b :=
  estimate_le_add perToken (by rw [String.toList_append, List.length_append])

end Tokens

namespace Prompt

/-! ### Measured extras -/

/-- Extras that are measured together with the line break behind them. -/
def MeasuredJoined (strategy : Strategy) (items : List Measured) : Prop :=
  ∀ item ∈ items, item.tokens = strategy.estimate (item.text ++ "\n")

/-- Texts are measured together with the line break behind them. -/
theorem measuredJoined_measureJoined (strategy : Strategy) (texts : List String) :
    MeasuredJoined strategy (Draft.measureJoined strategy texts) := by
  intro item hitem
  obtain ⟨text, -, rfl⟩ := List.mem_map.1 hitem
  rfl

/-- A block measures at most what its items measure. -/
theorem estimate_block_le {perToken : Nat} {items : List Measured}
    (h : MeasuredJoined (.ofCharacters perToken) items) :
    (Strategy.ofCharacters perToken).estimate (block items) ≤
      Tokens.total (items.map Measured.tokens) := by
  -- rounding is done for each item, and once for the whole block, which can only be less
  induction items with
  | nil => simp
  | cons item items ih =>
    have hitem : item.tokens = (Strategy.ofCharacters perToken).estimate (item.text ++ "\n") :=
      h item List.mem_cons_self
    have hitems := ih fun other hother => h other (List.mem_cons_of_mem item hother)
    rw [block_cons, List.map_cons, Tokens.total_cons, hitem]
    exact Nat.le_trans (Strategy.estimate_append_le perToken _ _) (Nat.add_le_add_left hitems _)

/-- The block of the chosen extras keeps to their budget. -/
theorem estimate_block_chooseExtras_le {perToken : Nat} {items : List Measured}
    (h : MeasuredJoined (.ofCharacters perToken) items) (budget : Nat) (present : List String) :
    (Strategy.ofCharacters perToken).estimate (block (chooseExtras items budget present)) ≤
      budget :=
  Nat.le_trans
    (estimate_block_le fun item hitem =>
      h item ((chooseExtras_sublist items budget present).subset hitem))
    (total_chooseExtras_le items budget present)

namespace Draft

/-! ### Keeping to the limit at once -/

variable {draft : Draft} {perToken : Nat}

/-- The content measures at most the budgets of its parts. -/
theorem estimate_content_le (hstrategy : draft.strategy = .ofCharacters perToken)
    (himports : MeasuredJoined (.ofCharacters perToken) draft.imports)
    (hsignatures : MeasuredJoined (.ofCharacters perToken) draft.signatures) (parser : Parser) :
    (Strategy.ofCharacters perToken).estimate (draft.content parser) ≤
      draft.importsBudget + draft.signaturesBudget +
        (draft.bodyBudget - draft.suffixTokens parser) := by
  have himportsBlock : (Strategy.ofCharacters perToken).estimate
      (block (draft.chosenImports parser)) ≤ draft.importsBudget :=
    estimate_block_chooseExtras_le himports _ _
  have hsignaturesBlock : (Strategy.ofCharacters perToken).estimate
      (block (draft.chosenSignatures parser)) ≤ draft.signaturesBudget :=
    estimate_block_chooseExtras_le hsignatures _ _
  have hbody : (Strategy.ofCharacters perToken).estimate (draft.body parser).text ≤
      draft.bodyBudget - draft.suffixTokens parser :=
    hstrategy ▸ draft.strategy.estimate_truncate_le draft.before _ .left
  -- what is joined is estimated at no more than its parts together
  have hsigned := Strategy.estimate_append_le perToken
    (block (draft.chosenSignatures parser)) (draft.body parser).text
  have hcontent := Strategy.estimate_append_le perToken
    (block (draft.chosenImports parser)) (draft.signedBody parser)
  rw [← signedBody] at hsigned
  rw [← content] at hcontent
  omega

/-- A template that writes the content once measures at most what is held back for it, and the
content. -/
theorem estimate_wrapped_le (hstrategy : draft.strategy = .ofCharacters perToken)
    (hplaces : draft.template.codePlaces draft.fileName draft.language ≤ 1) (content : String) :
    draft.strategy.estimate (draft.wrapped content) ≤
      draft.reserved + draft.strategy.estimate content := by
  rw [reserved, hstrategy]
  exact Strategy.estimate_le_add perToken (Template.length_render_le hplaces content)

/-- **The first round finds that the limit holds.** -/
theorem round_content (hstrategy : draft.strategy = .ofCharacters perToken)
    (himports : MeasuredJoined (.ofCharacters perToken) draft.imports)
    (hsignatures : MeasuredJoined (.ofCharacters perToken) draft.signatures)
    (hplaces : draft.template.codePlaces draft.fileName draft.language ≤ 1) {parser : Parser}
    (hsuffix : draft.suffixTokens parser ≤ draft.bodyBudget) :
    draft.round (draft.suffixTokens parser) (draft.content parser) =
      .ends (.ok (draft.content parser)) := by
  -- the budgets add up to what the limit leaves beside the template, and the code stands there once
  have hcontent := estimate_content_le hstrategy himports hsignatures parser
  have hwrapped := estimate_wrapped_le hstrategy hplaces (draft.content parser)
  have hbudgets := draft.budgets_add
  rw [← hstrategy] at hcontent
  have hfits : draft.strategy.estimate (draft.wrapped (draft.content parser)) +
      draft.suffixTokens parser ≤ draft.limit := by
    omega
  rw [round, if_pos hfits]

/-- **Counting characters, nothing is trimmed.** Around code that its template writes at most once,
and with a suffix that does not exceed the budget of the code, a prompt is finished in the first
round, and its template is put around all accepted extras and all of the code that was kept. -/
theorem finish_untrimmed {imports signatures : List String}
    (hstrategy : draft.strategy = .ofCharacters perToken)
    (himports : draft.imports = measureJoined draft.strategy imports)
    (hsignatures : draft.signatures = measureJoined draft.strategy signatures)
    (hplaces : draft.template.codePlaces draft.fileName draft.language ≤ 1)
    (hshare : draft.suffixBudget ≤ draft.bodyBudget) (parser : Parser) :
    draft.round (draft.suffixTokens parser) (draft.content parser) =
        .ends (.ok (draft.content parser)) ∧
      ∃ prompt, draft.finish parser = .ok prompt ∧
        prompt.before = draft.template.render
          (block (draft.chosenImports parser) ++ block (draft.chosenSignatures parser) ++
            (draft.strategy.truncate draft.before
              (draft.bodyBudget - draft.suffixTokens parser) .left).text)
          draft.fileName draft.language := by
  -- the lists were measured by the strategy of the draft
  have himports : MeasuredJoined (.ofCharacters perToken) draft.imports := by
    rw [himports, hstrategy]
    exact measuredJoined_measureJoined _ imports
  have hsignatures : MeasuredJoined (.ofCharacters perToken) draft.signatures := by
    rw [hsignatures, hstrategy]
    exact measuredJoined_measureJoined _ signatures
  have hsuffix : draft.suffixTokens parser ≤ draft.bodyBudget :=
    Nat.le_trans (draft.suffixTokens_le parser) hshare
  -- the first round accepts the content, so no later one is made
  have hround := round_content hstrategy himports hsignatures hplaces hsuffix
  refine ⟨hround, ?_⟩
  obtain ⟨prompt, hfinish⟩ := exists_finish_of_le hsuffix
  -- the prompt that `finish` gives is therefore the rendered content, cut nowhere
  obtain ⟨trimmed, htrim, hbefore, -⟩ := exists_trim_of_finish hfinish
  rw [trim_eq_round, hround] at htrim
  obtain rfl := Except.ok.inj htrim
  refine ⟨prompt, hfinish, ?_⟩
  rw [hbefore, String.append_assoc]
  rfl

/-- A draft with room for twenty tokens of four characters. -/
def snug : Draft where
  strategy := .ofCharacters 4
  settings := { importsPercent := 0.5, suffixPercent := 0.25 }
  limit := 20
  fileName := "a.py"
  language := some .python
  template := .custom "# \x7bfile_name\x7d (\x7blanguage\x7d)\n\x7bprefix\x7d"
  reserved_le := by decide +kernel
  before := "import sys\nx = f(1)\ny = f(2)\nz = f(3)\nprint(x, y, z"
  after := some ")\n"
  imports := measureJoined (.ofCharacters 4) ["import os"]
  signatures := measureJoined (.ofCharacters 4) ["# def f(n):"]

/-- Four tokens are held back, three go to the import, three to the signature and one to the suffix,
and the other nine to the code, which ends with its last thirty-six characters. -/
theorem finish_untrimmed_snug :
    ∃ prompt, snug.finish (fun _ _ => none) = .ok prompt ∧
      prompt.before = "# a.py (Python)\nimport os\n# def f(n):\n" ++
        "f(1)\ny = f(2)\nz = f(3)\nprint(x, y, z" := by
  have hstrategy : snug.strategy = .ofCharacters 4 := rfl
  have himports : snug.imports = measureJoined snug.strategy ["import os"] := rfl
  have hsignatures : snug.signatures = measureJoined snug.strategy ["# def f(n):"] := rfl
  obtain ⟨-, prompt, hfinish, hbefore⟩ := finish_untrimmed hstrategy himports hsignatures
    (by decide +kernel) (by decide +kernel) fun _ _ => none
  exact ⟨prompt, hfinish, hbefore.trans (by decide +kernel)⟩

end Draft

end Prompt

end CodeAssist
