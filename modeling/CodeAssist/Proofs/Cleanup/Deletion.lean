import CodeAssist.Cleanup.Pipeline
import CodeAssist.Proofs.Analysis.Blocks
import CodeAssist.Proofs.Cleanup.Repeats

/-!
# Cleaning up only deletes

No stage of the cleanup puts text into a reply, except for the line break before a generation. Most
stages keep a first part of the text: they discard it, or cut it at its end. Removing repeats takes
lines out of the middle as well. So what comes out has its characters, in their order, from what
came in, and is a first part of it unless repeats are removed.

The stages look at the reply within the code around it, and cut it at offsets that they find there.
`CompletionSite.cleanChecked?` does so with slices, ranges and differences that have no value out of
bounds. It always has a value, that of the plain cleanup (`CompletionSite.cleanChecked?_eq`): a
block's end is only used where it is a cut of the code, and behind the code before the cursor.

Main statement: `clean_only_deletes`, for every parser and every choice of stages.
-/

namespace CodeAssist.Cleanup

open CodeAssist
open CodeAssist.Tree (Parser)
open CodeAssist.Analysis (defaultCeiling)

/-! ### Stages that keep a first part -/

/-- Discarding comments keeps all of a completion or nothing. -/
theorem isPrefix_discardComments (parser : Parser) (completion : String)
    (language : Option Language) :
    (discardComments parser completion language).toList <+: completion.toList := by
  unfold discardComments
  split
  · exact List.nil_prefix
  · split
    · split
      · exact List.nil_prefix
      · exact List.prefix_rfl
    · exact List.prefix_rfl

/-- Discarding blanks keeps all of a text or nothing. -/
theorem isPrefix_dropBlank (text : String) : (dropBlank text).toList <+: text.toList := by
  unfold dropBlank
  split
  · exact List.nil_prefix
  · exact List.prefix_rfl

/-- Behind the code before the cursor a slice starts the completion. -/
theorem isPrefix_of_slice? {before completion kept : List Char} {stop : Nat}
    (h : Text.slice? (Text.byteSize before) stop (before ++ completion) = some kept) :
    kept <+: completion := by
  obtain ⟨a, b, hcode, ha, -⟩ := Text.eq_append_of_slice? h
  rw [List.append_assoc] at hcode
  -- the two first parts have one size, so they are one
  obtain rfl : a = before :=
    Text.eq_of_byteSize_eq ⟨kept ++ b, hcode.symm⟩ (List.prefix_append before completion) ha
  exact ⟨b, (List.append_cancel_left hcode).symm⟩

/-- Trimming to a block keeps a first part. -/
theorem isPrefix_trimToBlock (parser : Parser) (before completion : String)
    (language : Option Language) (minRows : Nat) :
    (trimToBlock parser before completion language minRows).toList <+: completion.toList := by
  simp only [trimToBlock]
  split
  · next kept hcut =>
    simp only [Option.bind_eq_bind, Option.bind_eq_some_iff, String.toList_append] at hcut
    obtain ⟨target, -, tree, -, stop, -, hslice⟩ := hcut
    rw [String.toList_ofList]
    exact isPrefix_of_slice? hslice
  · exact List.prefix_rfl

/-- Repairing only takes characters away at the end. -/
theorem isPrefix_repair (count? : List Char → Option Nat) (attempts best : Nat)
    (text : List Char) : repair count? attempts best text <+: text := by
  fun_induction repair count? attempts best text with
  | case1 => exact List.prefix_rfl
  | case2 => exact List.prefix_rfl
  | case3 => exact List.prefix_rfl
  | case4 attempts best text hbest trimmed hempty count hcount hless ih =>
    have htrimmed : trimmed <+: text := Text.dropEndWhile_prefix _ text
    exact (ih.trans (List.dropLast_prefix trimmed)).trans htrimmed
  | case5 => exact List.prefix_rfl
  | case6 => exact List.prefix_rfl

/-- Repairing a completion's end keeps a first part. -/
theorem isPrefix_repairEnd (parser : Parser) (before completion after : String)
    (language : Option Language) (maxAttempts : Nat) :
    (repairEnd parser before completion after language maxAttempts).toList <+:
      completion.toList := by
  simp only [repairEnd]
  split
  · exact List.prefix_rfl
  · split
    · exact List.prefix_rfl
    · rw [String.toList_ofList]
      exact isPrefix_repair ..

/-! ### Fences and breaks -/

/-- Stripping fences only deletes. -/
theorem stripFences_sublist (text : String) :
    (stripFences text).toList.Sublist text.toList := by
  have hlines := (List.filter_sublist (p := fun line => !opensFence line)
    (l := Text.terminated text.toList)).flatten
  rw [Text.flatten_terminated] at hlines
  rw [stripFences, String.toList_ofList]
  exact (Text.dropEndWhile_prefix _ _).sublist.trans hlines

/-- At most a line break is put before a text. -/
theorem prependLineBreak_sublist (context text : String) :
    (prependLineBreak context text).toList.Sublist ('\n' :: text.toList) := by
  unfold prependLineBreak
  split
  · rw [String.toList_append]
    exact List.Sublist.refl _
  · exact List.sublist_cons_self _ _

/-! ### Stages one after the other -/

/-- **Stages add up**: what each of them does to every text, as long as it composes, all of them
do. -/
theorem foldl_of_stages {Stage : Type} {R : List Char → List Char → Prop}
    {run : String → Stage → String} (hrefl : ∀ cs, R cs cs)
    (htrans : ∀ a b c, R a b → R b c → R a c) {stages : List Stage}
    (hrun : ∀ stage ∈ stages, ∀ text, R (run text stage).toList text.toList) (text : String) :
    R (stages.foldl run text).toList text.toList := by
  -- the first stage has run already, so the induction is over every text
  induction stages generalizing text with
  | nil => exact hrefl _
  | cons stage stages ih =>
    rw [List.foldl_cons]
    have hlater := ih (fun later hlater => hrun later (List.mem_cons_of_mem _ hlater))
      (run text stage)
    exact htrans _ _ _ hlater (hrun stage List.mem_cons_self text)

namespace CompletionSite

variable (site : CompletionSite)

/-- A stage other than removing repeats keeps a first part. -/
theorem isPrefix_run (text : String) {stage : CompletionStage} (h : stage ≠ .removeRepeats) :
    (site.run text stage).toList <+: text.toList := by
  cases stage with
  | discardComments => exact isPrefix_discardComments ..
  | removeRepeats => exact absurd rfl h
  | trimToBlock => exact isPrefix_trimToBlock ..
  | repairEnd => exact isPrefix_repairEnd ..
  | dropBlank => exact isPrefix_dropBlank text

/-- Every stage only deletes. -/
theorem run_sublist (text : String) (stage : CompletionStage) :
    (site.run text stage).toList.Sublist text.toList := by
  by_cases h : stage = .removeRepeats
  · rw [h]
    exact removeRepeats_sublist ..
  · exact (site.isPrefix_run text h).sublist

/-- **A cleaned completion** has its characters, in their order, from the completion. -/
theorem clean_sublist (completion : String) :
    (site.clean completion).toList.Sublist completion.toList :=
  foldl_of_stages List.Sublist.refl (fun _ _ _ => List.Sublist.trans)
    (fun stage _ text => site.run_sublist text stage) completion

/-- **Where repeats stay**, a cleaned completion is a first part of the completion. -/
theorem isPrefix_clean (h : .removeRepeats ∈ site.settings.excludedStages) (completion : String) :
    (site.clean completion).toList <+: completion.toList := by
  refine foldl_of_stages (fun _ => List.prefix_rfl) (fun _ _ _ => List.IsPrefix.trans)
    (fun stage hstage text => site.isPrefix_run text ?_) completion
  -- an excluded stage does not run
  rintro rfl
  simp [h] at hstage

end CompletionSite

/-! ### Generations -/

/-- A stage other than the line break only deletes. -/
theorem runGenerationStage_sublist (before : String) (settings : GenerationSettings)
    (text : String) {stage : GenerationStage} (h : stage ≠ .prependLineBreak) :
    (runGenerationStage before settings text stage).toList.Sublist text.toList := by
  cases stage with
  | stripFences => exact stripFences_sublist text
  | prependLineBreak => exact absurd rfl h
  | removeRepeats => exact removeRepeats_sublist ..
  | dropBlank => exact (isPrefix_dropBlank text).sublist

/-- **A cleaned generation** has its characters, in their order, from a line break and the
generation. -/
theorem cleanGeneration_sublist (before : String) (settings : GenerationSettings)
    (text : String) :
    (cleanGeneration before settings text).toList.Sublist ('\n' :: text.toList) := by
  let run := runGenerationStage before settings
  let enabled := fun stage => !settings.excludedStages.contains stage
  -- the line break comes between the fences and the other stages
  have hclean : cleanGeneration before settings text =
      ([.removeRepeats, .dropBlank].filter enabled).foldl run
        (([.prependLineBreak].filter enabled).foldl run
          (([.stripFences].filter enabled).foldl run text)) := by
    rw [← List.foldl_append, ← List.foldl_append, ← List.filter_append, ← List.filter_append]
    rfl
  -- no other stage adds anything
  have hdeletes : ∀ stages : List GenerationStage, .prependLineBreak ∉ stages → ∀ text,
      ((stages.filter enabled).foldl run text).toList.Sublist text.toList := by
    intro stages hstages
    refine foldl_of_stages List.Sublist.refl (fun _ _ _ => List.Sublist.trans)
      fun stage hstage text => runGenerationStage_sublist before settings text ?_
    rintro rfl
    exact hstages (List.mem_filter.1 hstage).1
  have hbreak : ∀ text, (([.prependLineBreak].filter enabled).foldl run text).toList.Sublist
      ('\n' :: text.toList) := by
    intro text
    rw [List.filter_cons, List.filter_nil]
    split
    · exact prependLineBreak_sublist before text
    · exact List.sublist_cons_self _ _
  rw [hclean]
  exact (hdeletes _ (by decide) _).trans
    ((hbreak _).trans ((hdeletes _ (by decide) text).cons_cons '\n'))

/-! ### Cleaning up within bounds -/

/-- A completion up to the end of the tightest block around its first visible character. It has no
value where a height or the slice has none. -/
def trimToBlockChecked? (parser : Parser) (before completion : String)
    (language : Option Language) (minRows : Nat) : Option String :=
  let code := before ++ completion
  let start := Text.byteSize before.toList
  match Text.firstVisiblePoint? code.toList start with
  | none => some completion
  | some target =>
    match (tryParse parser code language).ready? with
    | none => some completion
    | some tree => do
      let block ← Analysis.tightestBlockChecked? tree target minRows defaultCeiling
      match Text.offsetAt? code.toList block.stop with
      | none => some completion
      | some stop =>
        if start ≤ stop then return String.ofList (← Text.slice? start stop code.toList)
        else some completion

/-- **Trimming to a block never leaves its bounds.** -/
theorem trimToBlockChecked?_eq {parser : Parser} (hparser : parser.Forward)
    (before completion : String) (language : Option Language) (minRows : Nat) :
    trimToBlockChecked? parser before completion language minRows =
      some (trimToBlock parser before completion language minRows) := by
  simp only [trimToBlockChecked?, trimToBlock]
  cases Text.firstVisiblePoint? (before ++ completion).toList
    (Text.byteSize before.toList) with
  | none => rfl
  | some target =>
    cases htree : (tryParse parser (before ++ completion) language).ready? with
    | none => rfl
    | some tree =>
      simp only [Analysis.tightestBlockChecked?_eq
        (Tree.every_forward_of_tryParse hparser htree),
        Option.bind_eq_bind, Option.bind_some]
      cases hstop : Text.offsetAt? (before ++ completion).toList
        (Analysis.tightestBlock tree target minRows defaultCeiling).stop with
      | none => rfl
      | some stop =>
        simp only [Option.bind_some]
        split
        · next hle =>
          -- both ends are cuts of the code
          obtain ⟨parts, hparts⟩ := Text.exists_cut_of_offsetAt? hstop
          have hstart := Text.splitAt?_byteSize_append before.toList completion.toList
          rw [← String.toList_append] at hstart
          obtain ⟨kept, hslice, -⟩ := Text.slice?_of_cuts hstart hparts hle
          rw [hslice]
          rfl
        · next hnot =>
          have hslice : Text.slice? (Text.byteSize before.toList) stop
              (before ++ completion).toList = none := if_neg hnot
          rw [hslice]

namespace CompletionSite

variable (site : CompletionSite)

/-- One stage of the cleanup, within bounds. -/
def runChecked? (text : String) : CompletionStage → Option String
  | .removeRepeats => removeRepeatsChecked? site.before text site.settings.repeats
  | .trimToBlock =>
    trimToBlockChecked? site.parser site.before text site.language site.minRows
  | stage => some (site.run text stage)

/-- A completion after all stages, within bounds. -/
def cleanChecked? (completion : String) : Option String :=
  let stages := CompletionStage.all.filter fun stage =>
    !site.settings.excludedStages.contains stage
  stages.foldlM site.runChecked? completion

/-- A stage never leaves its bounds. -/
theorem runChecked?_eq (hparser : site.parser.Forward) (text : String)
    (stage : CompletionStage) : site.runChecked? text stage = some (site.run text stage) := by
  cases stage with
  | removeRepeats => exact removeRepeatsChecked?_eq ..
  | trimToBlock => exact trimToBlockChecked?_eq hparser ..
  | _ => rfl

/-- **Cleaning up a completion never leaves its bounds.** -/
theorem cleanChecked?_eq (hparser : site.parser.Forward) (completion : String) :
    site.cleanChecked? completion = some (site.clean completion) := by
  have hrun : site.runChecked? = fun text stage => pure (site.run text stage) := by
    funext text stage
    exact site.runChecked?_eq hparser text stage
  rw [cleanChecked?, hrun, List.foldlM_pure]
  rfl

end CompletionSite

/-- One stage of the cleanup of a generation, within bounds. -/
def runGenerationStageChecked? (before : String) (settings : GenerationSettings) (text : String) :
    GenerationStage → Option String
  | .removeRepeats => removeRepeatsChecked? before text settings.repeats
  | stage => some (runGenerationStage before settings text stage)

/-- A generation after all stages, within bounds. -/
def cleanGenerationChecked? (before : String) (settings : GenerationSettings) (text : String) :
    Option String :=
  let stages := GenerationStage.all.filter fun stage => !settings.excludedStages.contains stage
  stages.foldlM (runGenerationStageChecked? before settings) text

/-- **Cleaning up a generation never leaves its bounds.** -/
theorem cleanGenerationChecked?_eq (before : String) (settings : GenerationSettings)
    (text : String) :
    cleanGenerationChecked? before settings text =
      some (cleanGeneration before settings text) := by
  have hrun : runGenerationStageChecked? before settings =
      fun text stage => pure (runGenerationStage before settings text stage) := by
    funext text stage
    cases stage with
    | removeRepeats => exact removeRepeatsChecked?_eq ..
    | _ => rfl
  rw [cleanGenerationChecked?, hrun, List.foldlM_pure]
  rfl

/-! ### Only deleting -/

/-- **Cleaning up only deletes.** It never leaves its bounds; a cleaned completion has its
characters, in their order, from the completion, and is a first part of it where repeats stay; a
cleaned generation has them from a line break and the generation. -/
theorem clean_only_deletes (site : CompletionSite) (hparser : site.parser.Forward)
    (completion : String) (settings : GenerationSettings) (generation : String) :
    site.cleanChecked? completion = some (site.clean completion) ∧
      (site.clean completion).toList.Sublist completion.toList ∧
      (.removeRepeats ∈ site.settings.excludedStages →
        (site.clean completion).toList <+: completion.toList) ∧
      cleanGenerationChecked? site.before settings generation =
        some (cleanGeneration site.before settings generation) ∧
      (cleanGeneration site.before settings generation).toList.Sublist
        ('\n' :: generation.toList) :=
  ⟨site.cleanChecked?_eq hparser completion, site.clean_sublist completion,
    fun h => site.isPrefix_clean h completion, cleanGenerationChecked?_eq ..,
    cleanGeneration_sublist ..⟩

/-- A place behind two lines, for which every tree has one block of two rows. -/
def blockSite (excluded : List CompletionStage) : CompletionSite where
  parser _ source := some (.mk ⟨"module", true, false, false, 0, Text.byteSize source.toList⟩
    [.mk ⟨"block", true, false, false, 6, 17⟩ []])
  before := "# one\nx = 1\n"
  after := ""
  language := some .python
  settings := { excludedStages := excluded }
  minRows := 2

/-- The comment is a repeat and the last line is behind the block, so one line is left. Where
repeats stay, the block cuts a line off at the end. -/
theorem clean_only_deletes_blockSite :
    (blockSite []).cleanChecked? "y = 2\n# one\nz = 3" = some "y = 2" ∧
      ((blockSite [.removeRepeats]).clean "y = 2\n# one\nz = 3").toList <+:
        "y = 2\n# one\nz = 3".toList := by
  have hparser : ∀ excluded, (blockSite excluded).parser.Forward := by
    rintro excluded language source root ⟨⟩
    refine .intro (Nat.zero_le _) fun child hchild => ?_
    obtain rfl := List.mem_singleton.1 hchild
    exact .intro (show 6 ≤ 17 by decide) fun _ hnone => absurd hnone List.not_mem_nil
  have hclean : (blockSite []).clean "y = 2\n# one\nz = 3" = "y = 2" := by decide +kernel
  obtain ⟨hchecked, -⟩ := clean_only_deletes (blockSite []) (hparser []) "y = 2\n# one\nz = 3" {} ""
  obtain ⟨-, -, hprefix, -⟩ := clean_only_deletes (blockSite [.removeRepeats])
    (hparser [.removeRepeats]) "y = 2\n# one\nz = 3" {} ""
  exact ⟨hclean ▸ hchecked, hprefix List.mem_cons_self⟩

end CodeAssist.Cleanup
