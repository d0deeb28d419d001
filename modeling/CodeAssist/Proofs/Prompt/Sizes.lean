import CodeAssist.Proofs.Prompt.Layout
import CodeAssist.Proofs.Prompt.Untrimmed

/-!
# The recorded sizes of a prompt

A prompt says of each of its components how large it is as sent. The components stand in the order
of their names (`Draft.entries_metadata`), so what is recorded for one of them, and what is
recorded for all together, can be read off.

The extras are recorded as they were chosen, before anything is trimmed, and the code as it is left
after trimming: what is left of the content ends with all of the code, or is an end of it, so the
record of the code is the shorter one of both (`Draft.length_sentBody`).

* In characters this is too much where trimming reaches the extras: they are still recorded whole
  (`Draft.recorded_lengths_fit_iff`).
* In tokens, counted by characters, it is never too much: an end of the code measures no more than
  the code, and every part keeps to its budget (`Draft.reserved_add_sentTokens_le`).
-/

namespace CodeAssist

open CodeAssist.Tokens (Measured Strategy)
open CodeAssist.Tree (Parser)

/-- Counting characters, a text that is no longer than another one measures no more. -/
theorem Tokens.Strategy.estimate_le_of_length_le (perToken : Nat) {a b : String}
    (h : a.toList.length ≤ b.toList.length) :
    (Strategy.ofCharacters perToken).estimate a ≤ (Strategy.ofCharacters perToken).estimate b := by
  have hadd : (Strategy.ofCharacters perToken).estimate a ≤
      (Strategy.ofCharacters perToken).estimate b + (Strategy.ofCharacters perToken).estimate "" :=
    Strategy.estimate_le_add perToken h
  rwa [Strategy.estimate_empty, Nat.add_zero] at hadd

namespace Prompt

/-! ### Records by name -/

namespace Metadata

/-- Number of characters that are recorded as sent for a component, none for one that is not
there. -/
def sentLength (metadata : Metadata) (name : String) : Nat :=
  ((metadata.components.get? name).map fun component => component.sent.length).getD 0

/-- Number of characters that are recorded as sent for all that the template is put around. -/
def contentLength (metadata : Metadata) : Nat :=
  metadata.sentLength "imports" + metadata.sentLength "function_signatures" +
    metadata.sentLength "prefix"

theorem entries_record (metadata : Metadata) (component : Component) :
    (metadata.record component).components.entries =
      insertEntry component.name component metadata.components.entries := rfl

@[simp] theorem entries_empty : empty.components.entries = [] := rfl

end Metadata

/-! ### Characters of extras -/

theorem Size.length_sum_append (items others : List Measured) :
    (Size.sum (items ++ others)).length = (Size.sum items).length + (Size.sum others).length := by
  rw [Size.sum, List.map_append]
  exact Tokens.total_append _ _

/-- A block has the characters of its items, and a line break for each of them. -/
theorem length_block (items : List Measured) :
    (block items).toList.length = (Size.sum items).length + items.length := by
  induction items with
  | nil => rfl
  | cons item items ih =>
    have hsum : (Size.sum (item :: items)).length =
        item.text.toList.length + (Size.sum items).length := rfl
    have hbreak : "\n".toList.length = 1 := rfl
    simp only [block_cons, String.toList_append, List.length_append, List.length_cons, hsum, hbreak,
      ih]
    omega

namespace Draft

variable (draft : Draft) (parser : Parser)

/-! ### Records of a draft -/

/-- The record of the suffix, where there is one. -/
def suffixComponent? : Option Component :=
  match draft.after, draft.suffix? parser with
  | some after, some suffix => some ⟨"suffix", .measure draft.strategy after, .of suffix⟩
  | _, _ => none

/-- **The components in the order of their names.** -/
theorem entries_metadata (content : String) :
    (draft.metadata parser content).components.entries =
      [("function_signatures", ⟨"function_signatures", .sum draft.signatures,
          .sum (draft.chosenSignatures parser)⟩),
        ("imports", ⟨"imports", .sum draft.imports, .sum (draft.chosenImports parser)⟩),
        ("prefix", ⟨"prefix", .measure draft.strategy draft.before,
          draft.sentBody parser content⟩)] ++
      ((draft.suffixComponent? parser).map fun component => ("suffix", component)).toList := by
  -- the names decide the order in which the entries come out, whatever the order of recording
  have hbehind : ¬ "imports" < "function_signatures" ∧ ¬ "prefix" < "function_signatures" ∧
      ¬ "prefix" < "imports" := by decide +kernel
  have hsuffix : "function_signatures" < "suffix" ∧ "imports" < "suffix" ∧
      "prefix" < "suffix" := by decide +kernel
  unfold metadata suffixComponent?
  cases draft.after with
  | none => simp [Metadata.entries_record, insertEntry, hbehind]
  | some after =>
    cases draft.suffix? parser with
    | none => simp [Metadata.entries_record, insertEntry, hbehind]
    | some suffix => simp [Metadata.entries_record, insertEntry, hbehind, hsuffix]

theorem sentLength_code (content : String) :
    (draft.metadata parser content).sentLength "prefix" =
      (draft.sentBody parser content).length := by
  unfold Metadata.sentLength Dictionary.get?
  rw [entries_metadata]
  rfl

/-- What is recorded for the extras and the code, in characters. -/
theorem contentLength_metadata (content : String) :
    (draft.metadata parser content).contentLength =
      (Size.sum (draft.chosenImports parser)).length +
        (Size.sum (draft.chosenSignatures parser)).length +
        (draft.sentBody parser content).length := by
  unfold Metadata.contentLength Metadata.sentLength Dictionary.get?
  rw [entries_metadata]
  rfl

theorem sentTokens_metadata (content : String) :
    (draft.metadata parser content).sentTokens =
      Tokens.total ((draft.chosenSignatures parser).map Measured.tokens) +
        (Tokens.total ((draft.chosenImports parser).map Measured.tokens) +
          ((draft.sentBody parser content).tokens + draft.suffixTokens parser)) := by
  unfold Metadata.sentTokens Dictionary.values
  rw [entries_metadata]
  unfold suffixComponent? suffixTokens suffix?
  cases draft.after with
  | none => rfl
  | some after => rfl

/-! ### What is left of the code -/

/-- The content has the characters of its parts, and a line break for each of the extras. -/
theorem length_content :
    (draft.content parser).toList.length =
      (Size.sum (draft.chosenImports parser)).length + (draft.chosenImports parser).length +
        ((Size.sum (draft.chosenSignatures parser)).length +
          (draft.chosenSignatures parser).length + (draft.body parser).text.toList.length) := by
  rw [toList_content, List.length_append, List.length_append, length_block, length_block]

variable {draft parser}

/-- A finished prompt is what trimming leaves of the content, with its sizes. -/
theorem exists_content_of_finish {prompt : Prompt} (h : draft.finish parser = .ok prompt) :
    ∃ content, draft.trim (draft.suffixTokens parser) (draft.content parser) = .ok content ∧
      prompt = ⟨draft.wrapped content, (draft.suffix? parser).map Measured.text,
        draft.metadata parser content⟩ := by
  unfold finish at h
  cases htrim : draft.trim (draft.suffixTokens parser) (draft.content parser) with
  | error e => rw [htrim] at h; cases h
  | ok content =>
    rw [htrim] at h
    exact ⟨content, rfl, (Except.ok.inj h).symm⟩

/-- What trimming leaves of the content ends with all of the code, or is an end of it. -/
theorem isSuffix_body_or_of_trim {content : String}
    (h : draft.trim (draft.suffixTokens parser) (draft.content parser) = .ok content) :
    (draft.body parser).text.toList <:+ content.toList ∨
      content.toList <:+ (draft.body parser).text.toList := by
  have hbody : (draft.body parser).text.toList <:+ (draft.content parser).toList := by
    rw [toList_content]
    exact List.suffix_append_of_suffix (List.suffix_append _ _)
  exact List.suffix_or_suffix_of_suffix hbody (draft.trim_isSuffix h)

/-- **The record of the code** is that of the whole code, or of an end of it that is all there is
left. -/
theorem sentBody_cases {content : String}
    (h : draft.trim (draft.suffixTokens parser) (draft.content parser) = .ok content) :
    (draft.body parser).text.toList <:+ content.toList ∧
        draft.sentBody parser content = Size.of (draft.body parser) ∨
      content.toList <:+ (draft.body parser).text.toList ∧
        draft.sentBody parser content = Size.measure draft.strategy content := by
  unfold sentBody
  split
  case isTrue hwhole => exact .inl ⟨List.isSuffixOf_iff_suffix.1 hwhole, rfl⟩
  case isFalse hcut =>
    -- one of the two is an end of the other, and the program asks for the one direction first
    obtain hwhole | hend := isSuffix_body_or_of_trim h
    · exact absurd (List.isSuffixOf_iff_suffix.2 hwhole) hcut
    · exact .inr ⟨hend, rfl⟩

/-- The record of the code has the characters that are left of it. -/
theorem length_sentBody {content : String}
    (h : draft.trim (draft.suffixTokens parser) (draft.content parser) = .ok content) :
    (draft.sentBody parser content).length =
      min (draft.body parser).text.toList.length content.toList.length := by
  obtain ⟨hwhole, hsize⟩ | ⟨hend, hsize⟩ := sentBody_cases h
  · rw [hsize, Nat.min_eq_left hwhole.length_le]
    rfl
  · rw [hsize, Nat.min_eq_right hend.length_le]
    rfl

/-! ### Characters -/

/-- **When the recorded lengths fit.** The characters that are recorded for imports, signatures and
code add up to at most those of the content as sent exactly where the extras have no characters, or
trimming takes away no more characters than there are line breaks behind extras. For the code alone
the record is right. -/
theorem recorded_lengths_fit_iff {prompt : Prompt} (h : draft.finish parser = .ok prompt) :
    ∃ content, draft.trim (draft.suffixTokens parser) (draft.content parser) = .ok content ∧
      prompt.before = draft.template.render content draft.fileName draft.language ∧
      prompt.metadata.sentLength "prefix" =
        min (draft.body parser).text.toList.length content.toList.length ∧
      (prompt.metadata.contentLength ≤ content.toList.length ↔
        (Size.sum (draft.chosenImports parser ++ draft.chosenSignatures parser)).length = 0 ∨
          (draft.content parser).toList.length ≤ content.toList.length +
            (draft.chosenImports parser ++ draft.chosenSignatures parser).length) := by
  obtain ⟨content, htrim, rfl⟩ := exists_content_of_finish h
  refine ⟨content, htrim, rfl, ?_, ?_⟩
  · rw [sentLength_code, length_sentBody htrim]
  -- the extras count in full, so what is recorded fits if they are empty or nothing of them is cut
  · have hcontent := draft.length_content parser
    have hsum := Size.length_sum_append (draft.chosenImports parser)
      (draft.chosenSignatures parser)
    rw [contentLength_metadata, length_sentBody htrim, hcontent, hsum, List.length_append]
    omega

/-- A draft with an import and a signature, whose template writes the content twice. -/
def overfull : Draft where
  strategy := .ofCharacters 1
  settings := { importsPercent := 1.0, suffixPercent := 0.25 }
  limit := 40
  fileName := "main.py"
  language := some .python
  template := .custom "\x7bprefix\x7d\x7bprefix\x7d"
  reserved_le := by decide +kernel
  before := "y = f(x)"
  after := some "\nprint(y)"
  imports := measureJoined (.ofCharacters 1) ["import a"]
  signatures := measureJoined (.ofCharacters 1) ["# def f(x):"]

/-- Of twenty-nine characters seven are left, which is less than the code, but the import and the
signature are still recorded with nineteen characters. -/
theorem recorded_lengths_fit_iff_overfull :
    ∃ prompt, overfull.finish (fun _ _ => none) = .ok prompt ∧ prompt.before = " = f(x) = f(x)" ∧
      prompt.metadata.sentLength "prefix" = 7 ∧
      ¬ prompt.metadata.contentLength ≤ " = f(x)".toList.length := by
  have htrim : (overfull.trim (overfull.suffixTokens fun _ _ => none)
      (overfull.content fun _ _ => none)).toOption = some " = f(x)" := by
    decide +kernel
  obtain ⟨prompt, hprompt⟩ : ∃ prompt, overfull.finish (fun _ _ => none) = .ok prompt :=
    exists_finish_of_le (by decide +kernel)
  obtain ⟨content, hcontent, hbefore, hcode, hfit⟩ := recorded_lengths_fit_iff hprompt
  rw [hcontent] at htrim
  -- the two extras are trimmed away, and the code with them in part
  obtain rfl := Option.some.inj htrim
  exact ⟨prompt, hprompt, hbefore.trans (by decide +kernel), hcode.trans (by decide +kernel),
    mt hfit.1 (by decide +kernel)⟩

/-! ### Tokens -/

/-- Counting characters, the record of the code measures at most what the code was cut to. -/
theorem tokens_sentBody_le {perToken : Nat} (hstrategy : draft.strategy = .ofCharacters perToken)
    {content : String}
    (h : draft.trim (draft.suffixTokens parser) (draft.content parser) = .ok content) :
    (draft.sentBody parser content).tokens ≤ (draft.body parser).tokens := by
  obtain ⟨-, hsize⟩ | ⟨hend, hsize⟩ := sentBody_cases h
  · rw [hsize]
    exact Nat.le_refl _
  · -- an end of the code has no more characters than the code
    have hle : draft.strategy.estimate content ≤
        draft.strategy.estimate (draft.body parser).text := by
      rw [hstrategy]
      exact Strategy.estimate_le_of_length_le perToken hend.length_le
    have hmeasured : draft.strategy.estimate (draft.body parser).text =
        (draft.body parser).tokens := Strategy.estimate_truncate ..
    rw [hsize, ← hmeasured]
    exact hle

/-- **The recorded tokens keep to the limit.** Counting characters, the tokens held back for the
template and those recorded for all components are together at most the limit, however much of the
content was trimmed away. -/
theorem reserved_add_sentTokens_le {perToken : Nat}
    (hstrategy : draft.strategy = .ofCharacters perToken)
    (hshare : draft.suffixBudget ≤ draft.bodyBudget) {prompt : Prompt}
    (h : draft.finish parser = .ok prompt) :
    draft.reserved + prompt.metadata.sentTokens ≤ draft.limit := by
  obtain ⟨content, htrim, rfl⟩ := exists_content_of_finish h
  -- the extras keep to their budgets, since they are chosen within them
  have himports : Tokens.total ((draft.chosenImports parser).map Measured.tokens) ≤
      draft.importsBudget := total_chooseExtras_le ..
  have hsignatures : Tokens.total ((draft.chosenSignatures parser).map Measured.tokens) ≤
      draft.signaturesBudget := total_chooseExtras_le ..
  have hsuffix : draft.suffixTokens parser ≤ draft.bodyBudget :=
    Nat.le_trans (draft.suffixTokens_le parser) hshare
  -- the code takes what the suffix leaves, before and after trimming
  have hbody : (draft.body parser).tokens ≤ draft.bodyBudget - draft.suffixTokens parser :=
    Strategy.tokens_truncate_le ..
  have hsent := tokens_sentBody_le hstrategy htrim
  have hbudgets := draft.budgets_add
  rw [sentTokens_metadata]
  omega

/-- The trimmed prompt of `overfull` records nine tokens for the import, twelve for the signature,
seven for the code and four for the suffix. -/
theorem reserved_add_sentTokens_le_overfull :
    ∃ prompt, overfull.finish (fun _ _ => none) = .ok prompt ∧
      prompt.metadata.sentTokens = 32 ∧ overfull.reserved + prompt.metadata.sentTokens ≤ 40 := by
  obtain ⟨prompt, hprompt⟩ : ∃ prompt, overfull.finish (fun _ _ => none) = .ok prompt :=
    exists_finish_of_le (by decide +kernel)
  have htokens : (overfull.finish fun _ _ => none).toOption.map (·.metadata.sentTokens) =
      some 32 := by
    decide +kernel
  rw [hprompt] at htokens
  exact ⟨prompt, hprompt, Option.some.inj htokens,
    reserved_add_sentTokens_le rfl (by decide +kernel) hprompt⟩

end Draft

end Prompt

end CodeAssist
