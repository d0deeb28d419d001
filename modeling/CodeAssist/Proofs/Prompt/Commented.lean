import CodeAssist.Proofs.Analysis.Parsed
import CodeAssist.Proofs.Cleanup.LoneLines
import CodeAssist.Proofs.Text.Rows
import CodeAssist.Prompt.Draft
import Mathlib.Data.List.Forall2

/-!
# Function headers as comments

A function header is commented out row by row, and no row is looked into. So each row becomes one
line, which begins as a comment does, but a block comment ends where its text has the closer, as
the text of a header with a comment between its parameters has. A line is one whole comment exactly
where it is not a block comment or its row does not have the closer (`isWholeComment_render_iff`).

Main statement: `Draft.signatures_by_rows`.
-/

namespace CodeAssist

namespace CommentStyle

/-- A line that is one comment and nothing else: it begins as a comment does and has no line break,
and a block comment ends with it and not before. -/
structure IsWholeComment (style : CommentStyle) (line : List Char) : Prop where
  opener_prefix : style.opener <+: line
  unbroken : '\n' ∉ line
  closed : style = .slashStar →
    (∃ body, line = style.opener ++ body ++ closer) ∧
      ∀ before behind, line = before ++ closer ++ behind → behind = []

variable {style : CommentStyle} {row : List Char}

theorem opener_prefix_render (style : CommentStyle) (row : List Char) :
    style.opener <+: (style.render (String.ofList row)).toList := by
  rw [toList_render]
  exact List.prefix_append _ _

/-- A comment has no line break but those of its text. -/
theorem newline_notMem_render (style : CommentStyle) (h : '\n' ∉ row) :
    '\n' ∉ (style.render (String.ofList row)).toList := by
  rw [toList_render, String.toList_ofList]
  cases style <;> simp [opener, ending, closer, h]

/-- A closer that ends with the last character of a line is the first one exactly where the line has
none without that character. -/
theorem closed_iff (line : List Char) :
    (∀ before behind, line ++ ['/'] = before ++ closer ++ behind → behind = []) ↔
      ¬ closer <:+: line := by
  constructor
  · rintro hclosed ⟨before, behind, rfl⟩
    have hnil := hclosed before (behind ++ ['/']) (by simp)
    simp at hnil
  · intro hnone before behind hline
    -- what stands behind the mark is empty, or it ends with the character that was added
    rcases List.eq_nil_or_concat behind with hnil | ⟨init, last, rfl⟩
    · exact hnil
    · have hinit : line = before ++ closer ++ init := by
        rw [List.concat_eq_append, ← List.append_assoc] at hline
        exact (List.append_inj' hline rfl).1
      exact absurd ⟨before, init, hinit.symm⟩ hnone

/-- A block comment has a closer before its end where its text has one. -/
theorem closer_infix_block_iff :
    closer <:+: opener .slashStar ++ ' ' :: (row ++ [' ', '*']) ↔ closer <:+: row := by
  have hblank : ' ' ∉ closer := by decide
  have hopener : ¬ closer <:+: opener .slashStar := by decide
  have hend : ¬ closer <:+: ['*'] := by decide
  rw [Text.infix_append_cons_iff hblank, Text.infix_append_cons_iff hblank]
  simp only [hopener, hend, false_or, or_false]

/-- **A commented row is one whole comment** exactly where it is no block comment or the row does
not have the closer. -/
theorem isWholeComment_render_iff (h : '\n' ∉ row) :
    style.IsWholeComment (style.render (String.ofList row)).toList ↔
      (style = .slashStar → ¬ closer <:+: row) := by
  have hline : (CommentStyle.slashStar.render (String.ofList row)).toList =
      opener .slashStar ++ ' ' :: (row ++ [' ', '*']) ++ ['/'] := by
    rw [toList_render]
    simp [ending, closer]
  constructor
  -- a block comment is closed at its end, and only there if the row does not close it
  · rintro hwhole rfl
    have hclosed := (hwhole.closed rfl).2
    rw [hline] at hclosed
    exact mt closer_infix_block_iff.2 ((closed_iff _).1 hclosed)
  · intro hnone
    refine ⟨opener_prefix_render style row, newline_notMem_render style h, ?_⟩
    rintro rfl
    refine ⟨⟨' ' :: row ++ [' '], ?_⟩, ?_⟩
    · rw [hline]
      simp [closer]
    · rw [hline]
      exact (closed_iff _).2 (mt closer_infix_block_iff.1 (hnone rfl))

theorem isBlank_of_mem_closer {c : Char} (h : c ∈ closer) : Text.isBlank c = false := by
  obtain rfl | rfl : c = '*' ∨ c = '/' := by simpa [closer] using h
  · rfl
  · rfl

end CommentStyle

/-- C alone has block comments for single lines. -/
theorem Language.commentStyle_eq_slashStar_iff {language : Language} :
    language.commentStyle = .slashStar ↔ language = .c := by
  cases language <;> decide

namespace Prompt.Draft

open CommentStyle (closer IsWholeComment)
open CodeAssist.Tree (Node Parser)

/-! ### Headers -/

/-- A row of a header as a comment. -/
def commentedRow (style : CommentStyle) (row : List Char) : List Char :=
  (style.render (String.ofList (Text.trimEnd row))).toList

theorem newline_notMem_trimEnd {row : List Char} (h : '\n' ∉ row) : '\n' ∉ Text.trimEnd row :=
  mt (fun hmem => (Text.dropEndWhile_prefix _ row).subset hmem) h

/-- The lines of a commented header are its rows, each of them commented. -/
theorem rows_commentOut (style : CommentStyle) (header : String) :
    Text.rows (commentOut style header).toList =
      (Text.rows header.toList).map (commentedRow style) := by
  have hlines : (commentOut style header).toList =
      ['\n'].intercalate ((Text.rows header.toList).map (commentedRow style)) := by
    rw [commentOut, String.toList_intercalate, List.map_map]
    rfl
  rw [hlines]
  refine Text.rows_intercalate (List.forall_mem_map.2 fun row hrow => ?_) ?_
  · exact style.newline_notMem_render (newline_notMem_trimEnd (Text.notMem_of_mem_splitOn hrow))
  · exact mt List.map_eq_nil_iff.1 (Text.rows_ne_nil _)

/-- A commented row is one whole comment unless it is a block comment that its text closes. -/
theorem isWholeComment_commentedRow_iff {style : CommentStyle} {row : List Char}
    (h : '\n' ∉ row) :
    style.IsWholeComment (commentedRow style row) ↔
      (style = .slashStar → ¬ closer <:+: row) := by
  rw [commentedRow, CommentStyle.isWholeComment_render_iff (newline_notMem_trimEnd h),
    Text.infix_trimEnd_iff fun _ => CommentStyle.isBlank_of_mem_closer]

/-- **A commented header is whole comments** unless its style is the block style and it has the
closer. -/
theorem forall_isWholeComment_commentOut_iff {style : CommentStyle} {header : String} :
    (∀ line ∈ Text.rows (commentOut style header).toList, style.IsWholeComment line) ↔
      (style = .slashStar → ¬ closer <:+: header.toList) := by
  rw [rows_commentOut, List.forall_mem_map, Text.infix_iff_exists_row (by decide)]
  constructor
  · rintro hwhole hstyle ⟨row, hrow, hcloser⟩
    exact (isWholeComment_commentedRow_iff (Text.notMem_of_mem_splitOn hrow)).1 (hwhole row hrow)
      hstyle hcloser
  · intro hnone row hrow
    refine (isWholeComment_commentedRow_iff (Text.notMem_of_mem_splitOn hrow)).2 ?_
    exact fun hstyle hcloser => hnone hstyle ⟨row, hrow, hcloser⟩

/-! ### Drafts -/

variable {draft : Draft} {parser : Parser} {source : String} {known : Language} {root : Node}

/-- The signatures of a parsed text are its headers as comments. -/
theorem signatures_takeSignatures (hlanguage : draft.language = some known)
    (hroot : parser known source = some root) :
    (draft.takeSignatures parser source).signatures =
      (Analysis.signatures ⟨source, known, root⟩ Analysis.defaultCeiling).map fun header =>
        ⟨commentOut known.commentStyle header,
          draft.strategy.estimate (commentOut known.commentStyle header ++ "\n")⟩ := by
  have htree : (tryParse parser source draft.language).ready? = some ⟨source, known, root⟩ := by
    -- the tree is found by the language that the draft has
    rw [hlanguage, ready?_tryParse, hroot]
    rfl
  unfold takeSignatures
  split
  · next language tree hused hready =>
    obtain rfl := Option.some.inj (hlanguage.symm.trans hused)
    obtain rfl := Option.some.inj (htree.symm.trans hready)
    exact List.map_map
  · next hother => exact (hother known _ hlanguage htree).elim

/-- **Signatures are comments row by row.** Of a text that is parsed in a known language each header
is one signature, and each row of it is one line of the signature, which begins as a comment of the
language and has no line break. The lines are one whole comment each, unless the language is C and
the header has the closer of a comment. -/
theorem signatures_by_rows (hlanguage : draft.language = some known)
    (hroot : parser known source = some root) :
    List.Forall₂
      (fun header signature =>
        List.Forall₂
          (fun row line =>
            line = (known.commentStyle.render (String.ofList (Text.trimEnd row))).toList ∧
              known.commentStyle.opener <+: line ∧ '\n' ∉ line ∧
              (known.commentStyle.IsWholeComment line ↔ (known = .c → ¬ closer <:+: row)))
          (Text.rows header.toList) (Text.rows signature.text.toList) ∧
        ((∀ line ∈ Text.rows signature.text.toList, known.commentStyle.IsWholeComment line) ↔
          (known = .c → ¬ closer <:+: header.toList)))
      (Analysis.signatures ⟨source, known, root⟩ Analysis.defaultCeiling)
      (draft.takeSignatures parser source).signatures := by
  rw [signatures_takeSignatures hlanguage hroot, List.forall₂_map_right_iff, List.forall₂_same]
  refine fun header _ => ⟨?_, ?_⟩
  · rw [rows_commentOut, List.forall₂_map_right_iff, List.forall₂_same]
    -- a row has no line break in it, so it is one line of the comment as well
    intro row hrow
    have hbreak := Text.notMem_of_mem_splitOn hrow
    refine ⟨rfl, CommentStyle.opener_prefix_render _ _,
      CommentStyle.newline_notMem_render _ (newline_notMem_trimEnd hbreak), ?_⟩
    rw [isWholeComment_commentedRow_iff hbreak, Language.commentStyle_eq_slashStar_iff]
  · rw [forall_isWholeComment_commentOut_iff, Language.commentStyle_eq_slashStar_iff]

/-- A draft in C. -/
def inC : Draft where
  strategy := .characters 1 Nat.one_pos
  settings := {}
  limit := 100
  fileName := "f.c"
  language := some .c
  template := .custom "\x7bprefix\x7d"
  reserved_le := by decide +kernel
  before := ""
  after := none
  imports := []
  signatures := []

/-- A function in C with a comment behind its parameter. -/
def remarkedFunction : Node :=
  .mk ⟨"translation_unit", true, false, false, 0, 37⟩
    [.mk ⟨"function_definition", true, false, false, 0, 36⟩
      [.mk ⟨"primitive_type", true, false, false, 0, 3⟩ [],
        .mk ⟨"function_declarator", true, false, false, 4, 20⟩ [],
        .mk ⟨"compound_statement", true, false, false, 21, 36⟩ []]]

/-- The comment behind the parameter ends the comment around the header, of which the rest is left
outside. -/
theorem signatures_by_rows_remarkedFunction :
    let source := "int f(int a /* x */) \x7b\n  return a;\n\x7d\n"
    let parser : Parser := fun _ _ => some remarkedFunction
    (inC.takeSignatures parser source).signatures.map Tokens.Measured.text =
        ["/* int f(int a /* x */) */"] ∧
      ∀ signature ∈ (inC.takeSignatures parser source).signatures,
        ¬ ∀ line ∈ Text.rows signature.text.toList, IsWholeComment .slashStar line := by
  intro source parser
  have hheaders : Analysis.signatures ⟨source, .c, remarkedFunction⟩ Analysis.defaultCeiling =
      ["int f(int a /* x */)"] := by
    decide +kernel
  have htexts : (inC.takeSignatures parser source).signatures.map Tokens.Measured.text =
      ["/* int f(int a /* x */) */"] := by
    decide +kernel
  have hsignatures : List.Forall₂ _ _ (inC.takeSignatures parser source).signatures :=
    signatures_by_rows rfl rfl
  rw [hheaders] at hsignatures
  generalize (inC.takeSignatures parser source).signatures = signatures at *
  cases hsignatures with
  | cons hheader hrest =>
    cases hrest
    refine ⟨htexts, List.forall_mem_singleton.2 fun hwhole => ?_⟩
    -- the one line of the header has the closing mark in it
    have hnone := hheader.2.1 hwhole rfl
    exact hnone ⟨"int f(int a /* x ".toList, ")".toList, by decide +kernel⟩

end Prompt.Draft

end CodeAssist
