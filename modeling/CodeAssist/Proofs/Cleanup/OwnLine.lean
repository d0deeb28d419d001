import CodeAssist.Proofs.Cleanup.Deletion
import CodeAssist.Proofs.Cleanup.Fences
import CodeAssist.Proofs.Cleanup.KeptLines

/-!
# Generations on their own line

A generation that is put behind the middle of a line gets a line break in front. The stages that
come after take lines out again, the first ones included, and where the code before ends in blanks
the repeats are even looked for before that break. But a line that goes takes the break along that
leads to it, so what is left begins with a break, too (`beginsLine_removeRepeats`). No stage puts
anything before the first break of a text, so once nothing stands there it stays like that
(`beginsLine_runGenerationStage`, `beginsLine_foldl`).

Main statement: `cleanGeneration_on_own_line`.
-/

namespace CodeAssist.Cleanup

open CodeAssist.Text (BeginsLine)

variable {before text : String} {settings : GenerationSettings}

/-! ### The break in front -/

/-- Behind a text that does not end in a break, a break is put before what lacks one. -/
theorem beginsLine_prependLineBreak (hbefore : before.toList.getLast? ≠ some '\n')
    (text : String) : BeginsLine (prependLineBreak before text).toList := by
  unfold prependLineBreak
  split
  · rw [String.toList_append]
    exact Text.beginsLine_break _
  · next hnot =>
    -- nothing is put before a text without characters, or with a break in front
    simp only [Bool.and_eq_true, decide_eq_true_eq, not_and, not_not] at hnot
    rw [Text.beginsLine_iff, String.toList_eq_nil_iff]
    exact or_iff_not_imp_left.2 fun htext => hnot ⟨htext, hbefore⟩

theorem prependLineBreak_eq_self (h : BeginsLine text.toList) :
    prependLineBreak before text = text := by
  rw [Text.beginsLine_iff, String.toList_eq_nil_iff] at h
  refine if_neg fun hmissing => ?_
  simp only [Bool.and_eq_true, decide_eq_true_eq] at hmissing
  exact h.elim hmissing.1.1 hmissing.2

/-! ### What a stage keeps -/

theorem beginsLine_stripFences (h : BeginsLine text.toList) :
    BeginsLine (stripFences text).toList := by
  rw [toList_stripFences]
  refine BeginsLine.of_prefix ?_ (Text.dropEndWhile_prefix _ _)
  cases hchars : text.toList with
  | nil => exact Text.beginsLine_nil
  | cons c cs =>
    rw [hchars] at h
    obtain rfl : c = '\n' := h c rfl
    -- the break alone is a line, and no fence
    have hfirst : Text.terminated ('\n' :: cs) = ['\n'] :: Text.terminated cs := rfl
    rw [hfirst, List.filter_cons_of_pos (by decide)]
    exact Text.beginsLine_break _

/-- **Nothing comes before the first break** where lines are taken out behind it. -/
theorem beginsLine_removeRepeats (settings : RepeatSettings) (h : BeginsLine text.toList) :
    BeginsLine (removeRepeats before text settings).toList := by
  -- without a next line nothing is dropped; otherwise the text starts a line or it does not
  cases hrest : Text.restOfLine? before.toList text.toList with
  | none =>
    obtain ⟨hstart, hbreak⟩ := Text.restOfLine?_eq_none_iff.1 hrest
    rwa [removeRepeats_of_lastLine hstart hbreak]
  | some parts =>
    obtain ⟨rest, following⟩ := parts
    have hnext := Text.restOfLine?_eq_some_iff.1 hrest
    rw [removeRepeats_of_nextLine hnext]
    rcases hnext.rest_eq with ⟨-, rfl⟩ | ⟨-, line, rfl, -⟩
    · -- at a line start any segment may go, and the others begin with their own breaks
      obtain rfl : following = text.toList := hnext.append
      refine Text.beginsLine_flatten fun segment hsegment => ?_
      exact Text.beginsLine_of_mem_segments h ((keptLines_sublist ..).subset hsegment)
    · -- elsewhere the text is kept up to its first break
      rw [← hnext.append] at h
      exact (h.of_prefix (List.prefix_append _ _)).append (by simp) _

theorem beginsLine_runGenerationStage (before : String) (settings : GenerationSettings)
    (stage : GenerationStage) (h : BeginsLine text.toList) :
    BeginsLine (runGenerationStage before settings text stage).toList := by
  cases stage with
  | stripFences => exact beginsLine_stripFences h
  | prependLineBreak => rwa [runGenerationStage, prependLineBreak_eq_self h]
  | removeRepeats => exact beginsLine_removeRepeats settings.repeats h
  | dropBlank => exact h.of_prefix (isPrefix_dropBlank text)

/-! ### The whole cleanup -/

/-- A generation on its own line stays there, whatever stages come. -/
theorem beginsLine_foldl (before : String) (settings : GenerationSettings)
    (stages : List GenerationStage) (h : BeginsLine text.toList) :
    BeginsLine (stages.foldl (runGenerationStage before settings) text).toList :=
  foldl_of_stages (R := fun a b => BeginsLine b → BeginsLine a) (fun _ => id)
    (fun _ _ _ hab hbc hc => hab (hbc hc))
    (fun stage _ _ => beginsLine_runGenerationStage before settings stage) text h

/-- **A generation starts on its own line.** -/
theorem cleanGeneration_on_own_line (before text : String) {settings : GenerationSettings}
    (h : .prependLineBreak ∉ settings.excludedStages) :
    let result := cleanGeneration before settings text
    result = "" ∨ before.toList.getLast? = some '\n' ∨ result.toList.head? = some '\n' := by
  intro result
  by_cases hbefore : before.toList.getLast? = some '\n'
  · exact .inr (.inl hbefore)
  -- the stage runs, and from there on the text begins with a break
  have hruns : .prependLineBreak ∈
      GenerationStage.all.filter fun stage => !settings.excludedStages.contains stage :=
    List.mem_filter.2 ⟨by decide, by simpa using h⟩
  obtain ⟨earlier, later, hstages⟩ := List.append_of_mem hruns
  have hresult : BeginsLine result.toList := by
    simp only [result, cleanGeneration]
    rw [hstages, List.foldl_append, List.foldl_cons]
    exact beginsLine_foldl before settings later (beginsLine_prependLineBreak hbefore _)
  rw [Text.beginsLine_iff, String.toList_eq_nil_iff] at hresult
  exact hresult.imp_right .inr

/-- The code before ends in blanks. The fence is stripped, a break is put in front, and the first
line goes because it repeats a comment. What is left begins with the break of the second line. -/
theorem cleanGeneration_on_own_line_repeatedComment :
    let before := "# area\nwidth = 1\n  "
    let reply := "```python\n# area\nheight = 2\n```"
    .prependLineBreak ∉ ({} : GenerationSettings).excludedStages ∧
      before.toList.getLast? ≠ some '\n' ∧
      cleanGeneration before {} reply = "\nheight = 2\n" ∧
      (cleanGeneration before {} reply).toList.head? = some '\n' := by
  intro before reply
  have hruns : .prependLineBreak ∉ ({} : GenerationSettings).excludedStages := List.not_mem_nil
  have hbefore : before.toList.getLast? ≠ some '\n' := by decide
  have hclean : cleanGeneration before {} reply = "\nheight = 2\n" := by decide +kernel
  -- a reply of which something is left has a first character
  have hne : cleanGeneration before {} reply ≠ "" := by
    rw [hclean]
    decide
  have hline := cleanGeneration_on_own_line before reply hruns
  exact ⟨hruns, hbefore, hclean, (hline.resolve_left hne).resolve_left hbefore⟩

end CodeAssist.Cleanup
