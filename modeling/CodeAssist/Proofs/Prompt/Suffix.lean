import CodeAssist.Proofs.Analysis.Anchor
import CodeAssist.Proofs.Prompt.Budget

/-!
# Where the suffix continues

The suffix as sent is cut at its end only, so it starts where its candidate starts. Without the
context of the cursor the candidate is all of the code behind the cursor. With it the candidate is
the rest of the anchor, and where that anchor starts behind the cursor (`anchorAhead?`), the code
between the cursor and the anchor is left out: the anchor's row decides alone, and nothing asks
whether the anchor encloses the cursor.

Main statement: `suffix_continues_behind_gap` — with no anchor ahead of the cursor the suffix
continues at the cursor, and with one it continues at that anchor.
-/

namespace CodeAssist.Prompt.Draft

open CodeAssist.Analysis (BehindGap contextAnchor? defaultCeiling restOfAnchor?)
open CodeAssist.Text (endPoint)
open CodeAssist.Tokens (Measured Strategy)
open CodeAssist.Tree (Excerpt Node Parser SyntaxTree)

variable (draft : Draft) (parser : Parser)

/-- The anchor that the suffix is cut to although it starts behind the cursor. -/
def anchorAhead? (after : String) : Option Excerpt :=
  if !draft.settings.truncateSuffixToContext || draft.before = "" then none
  else
    let cursor := endPoint draft.before.toList
    (tryParse parser (draft.before ++ after) draft.language).ready?.bind fun tree =>
      (contextAnchor? tree cursor defaultCeiling).filter fun anchor =>
        anchor.text ≠ "" && cursor < anchor.start

variable {draft parser} {after : String}

/-- The tree of both parts of the code belongs to the code. -/
theorem source_of_tryParse {before after : String} {language : Option Language}
    {tree : SyntaxTree} (h : (tryParse parser (before ++ after) language).ready? = some tree) :
    tree.source.toList = before.toList ++ after.toList := by
  obtain ⟨used, root, -, rfl⟩ := exists_root_of_tryParse h
  exact String.toList_append

/-- Without an anchor ahead of the cursor the candidate continues at the cursor. -/
theorem isPrefix_suffixCandidate (h : draft.anchorAhead? parser after = none) :
    (draft.suffixCandidate parser after).toList <+: after.toList := by
  unfold suffixCandidate
  unfold anchorAhead? at h
  split
  · exact List.prefix_rfl
  · next hcontext =>
    rw [if_neg hcontext] at h
    -- without a tree, or without an anchor, the candidate is the text behind the cursor
    cases htree : (tryParse parser (draft.before ++ after) draft.language).ready? with
    | none => exact List.prefix_rfl
    | some tree =>
      rw [htree, Option.bind_some] at h
      change ((restOfAnchor? tree (endPoint draft.before.toList) defaultCeiling).getD
        after).toList <+: after.toList
      cases hrest : restOfAnchor? tree (endPoint draft.before.toList) defaultCeiling with
      | none => exact List.prefix_rfl
      | some rest =>
        have hsource := source_of_tryParse htree
        obtain ⟨anchor, hanchor, -⟩ := Option.bind_eq_some_iff.1 hrest
        refine Analysis.isPrefix_of_restOfAnchor? hsource hanchor (fun hahead => ?_) hrest
        rw [hanchor, Option.filter_some, if_pos (by simpa using hahead)] at h
        -- an anchor ahead of the cursor is what `h` excludes
        cases h

/-- With an anchor ahead of the cursor the candidate is that anchor, behind a gap. -/
theorem suffixCandidate_of_anchorAhead? {anchor : Excerpt}
    (h : draft.anchorAhead? parser after = some anchor) :
    draft.suffixCandidate parser after = anchor.text ∧
      BehindGap draft.before.toList after.toList anchor := by
  unfold suffixCandidate
  unfold anchorAhead? at h
  split at h
  · cases h
  · next hcontext =>
    rw [if_neg hcontext]
    obtain ⟨tree, htree, hfound⟩ := Option.bind_eq_some_iff.1 h
    obtain ⟨hanchor, hahead⟩ := Option.filter_eq_some_iff.1 hfound
    have hsource := source_of_tryParse htree
    obtain ⟨htext, hlt⟩ : anchor.text ≠ "" ∧ endPoint draft.before.toList < anchor.start := by
      simpa using hahead
    -- an anchor ahead is kept whole, and it begins behind the gap
    obtain ⟨hrest, hgap⟩ := Analysis.restOfAnchor?_of_lt hsource hanchor htext hlt
    refine ⟨?_, hgap⟩
    rw [htree]
    change (restOfAnchor? tree (endPoint draft.before.toList) defaultCeiling).getD after = _
    rw [hrest, Option.getD_some]

/-- **Where the suffix continues.** The suffix as sent is a piece of the code behind the cursor. The
gap before it stays within the cursor's row, and there is one exactly where an anchor is ahead of
the cursor; it then ends where that anchor starts. -/
theorem suffix_continues_behind_gap {prompt : Prompt} (hafter : draft.after = some after)
    (h : draft.finish parser = .ok prompt) :
    ∃ gap sent, prompt.after = some sent ∧ gap ++ sent.toList <+: after.toList ∧ '\n' ∉ gap ∧
      (gap = [] ↔ draft.anchorAhead? parser after = none) ∧
      ∀ anchor, draft.anchorAhead? parser after = some anchor →
        endPoint (draft.before.toList ++ gap) = anchor.start ∧
          sent.toList <+: anchor.text.toList := by
  obtain ⟨-, -, -, hsent⟩ := exists_trim_of_finish h
  rw [suffix?, hafter, Option.map_some, Option.map_some] at hsent
  -- truncation keeps the start of the candidate
  have hkept : (draft.strategy.truncate (draft.suffixCandidate parser after) draft.suffixBudget
      .right).text.toList <+: (draft.suffixCandidate parser after).toList :=
    draft.strategy.isKept_truncate _ _ .right
  cases hahead : draft.anchorAhead? parser after with
  -- with no anchor ahead the gap is empty
  | none =>
    exact ⟨[], _, hsent, hkept.trans (isPrefix_suffixCandidate hahead), List.not_mem_nil, by simp,
      by simp⟩
  | some anchor =>
    obtain ⟨hcandidate, gap, hgap, hbreak, hstart, hbehind⟩ :=
      suffixCandidate_of_anchorAhead? hahead
    rw [hcandidate] at hkept hsent
    refine ⟨gap, _, hsent, ?_, hbreak, by simpa using hgap, ?_⟩
    · exact ((List.prefix_append_right_inj gap).2 hkept).trans hbehind
    · rintro _ ⟨⟩
      exact ⟨hstart, hkept⟩

/-- A draft whose cursor stands in front of a function on the same row. -/
def crowded : Draft where
  strategy := .characters 4 (by decide)
  settings := { suffixPercent := 1.0, truncateSuffixToContext := true }
  limit := 100
  fileName := "lib.rs"
  language := some .rust
  template := .custom "\x7bprefix\x7d"
  reserved_le := by decide +kernel
  before := "use a"
  after := some "::*; fn f() {}"
  imports := []
  signatures := []

/-- The tree of the code of `crowded`: an import and a function. -/
def crowdedTree : Node :=
  .mk ⟨"source_file", true, false, false, 0, 19⟩
    [.mk ⟨"use_declaration", true, false, false, 0, 9⟩ [],
      .mk ⟨"function_item", true, false, false, 10, 19⟩ []]

/-- Five characters between the cursor and the function are left out, so the suffix as sent is not
how the code behind the cursor starts. -/
theorem suffix_continues_behind_gap_crowded :
    ∃ prompt sent gap, crowded.finish (fun _ _ => some crowdedTree) = .ok prompt ∧
      prompt.after = some sent ∧ gap ≠ [] ∧ gap ++ sent.toList <+: "::*; fn f() {}".toList ∧
      ¬ sent.toList <+: "::*; fn f() {}".toList := by
  have hafter : (crowded.finish fun _ _ => some crowdedTree).toOption.map Prompt.after =
      some (some "fn f() {}") := by
    decide +kernel
  have hahead : crowded.anchorAhead? (fun _ _ => some crowdedTree) "::*; fn f() {}" ≠ none := by
    decide +kernel
  cases hprompt : crowded.finish fun _ _ => some crowdedTree with
  | error e => rw [hprompt] at hafter; cases hafter
  | ok prompt =>
    -- the gap cannot be empty here, as the anchor is ahead of the cursor
    obtain ⟨gap, sent, hsent, hpiece, -, hgap, -⟩ := suffix_continues_behind_gap rfl hprompt
    rw [hprompt] at hafter
    obtain rfl : sent = "fn f() {}" :=
      Option.some.inj (hsent.symm.trans (Option.some.inj hafter))
    exact ⟨prompt, _, gap, rfl, hsent, mt hgap.1 hahead, hpiece, by decide⟩

end CodeAssist.Prompt.Draft
