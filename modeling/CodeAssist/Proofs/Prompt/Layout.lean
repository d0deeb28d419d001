import CodeAssist.Proofs.Prompt.Budget
import CodeAssist.Proofs.Prompt.Extras

/-!
# The layout of a prompt

The template is put around imports, signatures and code, in this order, and each of these parts is
known: the extras are accepted in their order, and the code is cut at its start
(`Draft.body_isSuffix`). Trimming takes away at the start of all that, round after round, however
the tokens fall (`Draft.trim_isSuffix`); it needs nothing but the side at which truncation keeps
text. So the imports are lost first, then the signatures, then the oldest code (`LostAtTop`), and
what survives of the code ends at the cursor.

Main statement: `Draft.content_lost_at_top`.
-/

namespace CodeAssist.Prompt

open CodeAssist.Tokens (Measured Side Strategy)
open CodeAssist.Tree (Parser)

/-! ### Losses at the top -/

/-- What is left of three parts, one above the other, when text is lost at the top: a part loses
text only after all parts above it are lost. -/
inductive LostAtTop (imports signatures body : List Char) : List Char → Prop where
  /-- Some imports are lost, or nothing is. -/
  | imports {kept : List Char} (h : kept <:+ imports) :
    LostAtTop imports signatures body (kept ++ (signatures ++ body))
  /-- The imports are lost, and some signatures. -/
  | signatures {kept : List Char} (h : kept <:+ signatures) :
    LostAtTop imports signatures body (kept ++ body)
  /-- The extras are lost, and some of the code. -/
  | body {kept : List Char} (h : kept <:+ body) : LostAtTop imports signatures body kept

/-- What two texts one after the other end with is an end of the second one, or all of it behind an
end of the first one. -/
theorem isSuffix_append_iff {kept a b : List Char} :
    kept <:+ a ++ b ↔ kept <:+ b ∨ ∃ k, k <:+ a ∧ kept = k ++ b := by
  constructor
  · intro h
    -- two ends of one text: the shorter one is an end of the longer one
    rcases List.suffix_or_suffix_of_suffix h (List.suffix_append a b) with hb | ⟨k, rfl⟩
    · exact .inl hb
    · obtain ⟨lost, hlost⟩ := h
      rw [← List.append_assoc] at hlost
      exact .inr ⟨k, ⟨lost, List.append_cancel_right hlost⟩, rfl⟩
  · rintro (hb | ⟨k, ⟨lost, rfl⟩, rfl⟩)
    · exact List.suffix_append_of_suffix hb
    · exact ⟨lost, by rw [List.append_assoc]⟩

/-- **Text is lost at the top** exactly where an end of the three parts is left. -/
theorem lostAtTop_iff {imports signatures body kept : List Char} :
    LostAtTop imports signatures body kept ↔ kept <:+ imports ++ (signatures ++ body) := by
  constructor
  · rintro (h | h | h)
    · exact isSuffix_append_iff.2 (.inr ⟨_, h, rfl⟩)
    · exact List.suffix_append_of_suffix (isSuffix_append_iff.2 (.inr ⟨_, h, rfl⟩))
    · exact List.suffix_append_of_suffix (List.suffix_append_of_suffix h)
  -- what is left begins in the imports, in the signatures or in the code
  · intro h
    rcases isSuffix_append_iff.1 h with h | ⟨k, hk, rfl⟩
    · rcases isSuffix_append_iff.1 h with h | ⟨k, hk, rfl⟩
      · exact .body h
      · exact .signatures hk
    · exact .imports hk

namespace Draft

variable (draft : Draft)

/-! ### The parts -/

/-- The code as sent ends at the cursor. -/
theorem body_isSuffix (parser : Parser) :
    (draft.body parser).text.toList <:+ draft.before.toList :=
  draft.strategy.isKept_truncate draft.before _ .left

/-- The content, part by part. -/
theorem toList_content (parser : Parser) :
    (draft.content parser).toList =
      (block (draft.chosenImports parser)).toList ++
        ((block (draft.chosenSignatures parser)).toList ++ (draft.body parser).text.toList) := by
  rw [content, signedBody, String.toList_append, String.toList_append]

/-! ### Trimming -/

/-- **A round that goes on takes away at the start.** -/
theorem isSuffix_of_round {used : Nat} {content kept : String}
    (h : draft.round used content = .goesOn kept) : kept.toList <:+ content.toList := by
  unfold round at h
  split_ifs at h
  obtain rfl := Round.goesOn.inj h
  exact draft.strategy.isKept_truncate content _ .left

/-- **Trimming takes away at the start.** -/
theorem trim_isSuffix {used : Nat} {content trimmed : String}
    (h : draft.trim used content = .ok trimmed) : trimmed.toList <:+ content.toList := by
  -- the text that is kept gets shorter round by round, from its start
  fun_induction draft.trim used content with
  | case1 content =>
    obtain rfl := Except.ok.inj h
    exact List.suffix_rfl
  | case2 => cases h
  | case3 content total tokens hfits hempty ih =>
    have hround : draft.round used content = .goesOn
        (draft.strategy.truncate content (tokens - (total - draft.limit)) .left).text := by
      rw [round, if_neg hfits, if_neg hempty]
    exact (ih h).trans (draft.isSuffix_of_round hround)

/-- A content that keeps to the limit is not trimmed. -/
theorem trim_of_fits {used : Nat} {content : String}
    (h : draft.strategy.estimate (draft.wrapped content) + used ≤ draft.limit) :
    draft.trim used content = .ok content := by
  rw [trim, dif_pos h]

/-! ### The layout -/

/-- How the parts of a draft lie in the content of its prompt. -/
structure Layout (parser : Parser) (content : String) : Prop where
  /-- The extras are accepted in their order. -/
  imports_sublist : (draft.chosenImports parser).Sublist draft.imports
  signatures_sublist : (draft.chosenSignatures parser).Sublist draft.signatures
  /-- The code ends at the cursor. -/
  body_isSuffix : (draft.body parser).text.toList <:+ draft.before.toList
  /-- The content is an end of imports, signatures and code. -/
  content_isSuffix : content.toList <:+
    (block (draft.chosenImports parser) ++ block (draft.chosenSignatures parser) ++
      (draft.body parser).text).toList
  /-- So what survives of the code ends at the cursor, -/
  ends_at_cursor : content.toList <:+ draft.before.toList ∨
    (draft.body parser).text.toList <:+ content.toList
  /-- text is lost at the top only, -/
  lostAtTop : LostAtTop (block (draft.chosenImports parser)).toList
    (block (draft.chosenSignatures parser)).toList (draft.body parser).text.toList content.toList
  /-- and it is lost only where all of it would exceed the limit. -/
  eq_of_fits : draft.strategy.estimate (draft.wrapped (draft.content parser)) +
    draft.suffixTokens parser ≤ draft.limit → content = draft.content parser

/-- What trimming leaves of a draft's content has its layout. -/
theorem layout_of_trim {parser : Parser} {content : String}
    (h : draft.trim (draft.suffixTokens parser) (draft.content parser) = .ok content) :
    draft.Layout parser content := by
  have hparts := draft.toList_content parser
  have hsuffix := draft.trim_isSuffix h
  have hbody : (draft.body parser).text.toList <:+ (draft.content parser).toList := by
    rw [hparts]
    exact List.suffix_append_of_suffix (List.suffix_append _ _)
  refine ⟨chooseExtras_sublist .., chooseExtras_sublist .., draft.body_isSuffix parser, ?_, ?_,
    lostAtTop_iff.2 (hparts ▸ hsuffix), fun hfits => ?_⟩
  · rw [String.toList_append, String.toList_append, List.append_assoc, ← hparts]
    exact hsuffix
  · -- of two ends of the content one is an end of the other
    exact (List.suffix_or_suffix_of_suffix hsuffix hbody).imp_left fun hkept =>
      hkept.trans (draft.body_isSuffix parser)
  · rw [draft.trim_of_fits hfits] at h
    exact (Except.ok.inj h).symm

/-- **Text is lost at the top only.** A finished prompt is the template around an end of imports,
signatures and code, whatever the strategy, the template and the rounds of trimming. -/
theorem content_lost_at_top {draft : Draft} {parser : Parser} {prompt : Prompt}
    (h : draft.finish parser = .ok prompt) :
    ∃ content, draft.trim (draft.suffixTokens parser) (draft.content parser) = .ok content ∧
      prompt.before = draft.template.render content draft.fileName draft.language ∧
      draft.Layout parser content := by
  obtain ⟨content, htrim, hbefore, -⟩ := exists_trim_of_finish h
  exact ⟨content, htrim, hbefore, draft.layout_of_trim htrim⟩

/-- A draft whose template writes imports, a signature and code twice, which exceeds the limit. -/
def crammed : Draft where
  strategy := .characters 1 Nat.one_pos
  settings := { importsPercent := 1.0 }
  limit := 40
  fileName := "main.py"
  language := some .python
  template := .custom "\x7bprefix\x7d\x7bprefix\x7d"
  reserved_le := by decide +kernel
  before := "x = f(a)\ny"
  after := none
  imports := [⟨"import a", 9⟩]
  signatures := [⟨"# def f():", 11⟩]

/-- Of thirty characters, written twice, ten stay: the import and the signature are lost, and the
code stays whole. -/
theorem content_lost_at_top_crammed :
    ∃ prompt, crammed.finish (fun _ _ => none) = .ok prompt ∧
      prompt.before = "x = f(a)\nyx = f(a)\ny" ∧
      crammed.Layout (fun _ _ => none) "x = f(a)\ny" := by
  have htrim : (crammed.trim (crammed.suffixTokens fun _ _ => none)
      (crammed.content fun _ _ => none)).toOption = some "x = f(a)\ny" := by
    decide +kernel
  obtain ⟨prompt, hprompt⟩ : ∃ prompt, crammed.finish (fun _ _ => none) = .ok prompt :=
    exists_finish_of_le (by decide +kernel)
  obtain ⟨content, hcontent, hbefore, hlayout⟩ := content_lost_at_top hprompt
  rw [hcontent] at htrim
  obtain rfl := Option.some.inj htrim
  exact ⟨prompt, hprompt, hbefore.trans (by decide +kernel), hlayout⟩

end Draft

end CodeAssist.Prompt
