import CodeAssist.Proofs.Analysis.Tightest
import CodeAssist.Proofs.Cleanup.Deletion
import CodeAssist.Proofs.Text.Visible

/-!
# How much of a completion is trimmed away

A completion is cut at the end of the tightest block around its first visible character. A block is
around that character where it starts at or before it and ends at or behind the point *before* it:
ends count as inside. So a block that ends right before the first visible character is a block
around it, and ends before all others. Then nothing but the leading blanks is kept
(`trimToBlock_keeps_first`). In all other cases the first visible character is kept, because every
block around it ends behind it.
-/

namespace CodeAssist.Cleanup

open CodeAssist
open CodeAssist.Analysis (defaultCeiling blockSearch blocksAround height)
open CodeAssist.Text (isBlank endPoint byteSize)
open CodeAssist.Tree (Node Parser SyntaxTree)

/-! ### Cutting at a point -/

/-- A point at or behind the end of a first part is the end of a longer one, if it has an offset. -/
theorem exists_longer_of_offsetAt? {code shown : List Char} {p : Text.Point} {stop : Nat}
    (hshown : shown <+: code) (hp : endPoint shown ≤ p) (h : Text.offsetAt? code p = some stop) :
    ∃ more, shown ++ more <+: code ∧ endPoint (shown ++ more) = p ∧
      byteSize (shown ++ more) = stop := by
  obtain ⟨a, b, rfl, hsize, hend⟩ := Text.exists_endPoint_of_offsetAt? h
  have hle : ¬ endPoint a < endPoint shown := by rwa [hend, not_lt]
  obtain ⟨more, rfl⟩ := (Text.isPrefix_iff_not_endPoint_lt hshown (List.prefix_append a b)).2 hle
  exact ⟨more, List.prefix_append _ b, hend, hsize⟩

/-- A completion up to a point, or all of it where the point is not in the code. -/
def upToPoint (before completion : List Char) (p : Text.Point) : List Char :=
  let code := before ++ completion
  ((Text.offsetAt? code p).bind fun stop =>
    Text.slice? (byteSize before) stop code).getD completion

/-- **Cutting at or behind a first part** of a completion keeps that part, and no more of it exactly
where the point is its end. -/
theorem exists_upToPoint (before : List Char) {first rest : List Char} (hrest : rest ≠ [])
    {p : Text.Point} (hp : endPoint (before ++ first) ≤ p) :
    ∃ more, upToPoint before (first ++ rest) p = first ++ more ∧ more <+: rest ∧
      (more = [] ↔ p = endPoint (before ++ first)) := by
  rw [upToPoint, ← List.append_assoc]
  cases hstop : Text.offsetAt? (before ++ first ++ rest) p with
  | none =>
    refine ⟨rest, rfl, List.prefix_rfl, iff_of_false hrest ?_⟩
    -- the end of a first part has an offset
    rintro rfl
    rw [Text.offsetAt?_endPoint _ (by simp [hrest])] at hstop
    cases hstop
  -- the cut goes beyond the first part, and what lies between them is kept
  | some stop =>
    obtain ⟨more, hmore, hend, hsize⟩ :=
      exists_longer_of_offsetAt? (List.prefix_append _ rest) hp hstop
    obtain ⟨behind, rfl⟩ := (List.prefix_append_right_inj _).1 hmore
    refine ⟨more, ?_, List.prefix_append _ _, ?_⟩
    · have hslice := Text.slice?_append before (first ++ more) behind
      rw [← Text.byteSize_append, ← List.append_assoc before, hsize] at hslice
      have hcode : before ++ first ++ (more ++ behind) = before ++ (first ++ more ++ behind) := by
        simp only [List.append_assoc]
      rw [Option.bind_some, hcode, hslice, Option.getD_some]
    · rw [← hend]
      -- one point in one text is one place
      constructor
      · rintro rfl
        rw [List.append_nil]
      · intro heq
        have hsame := Text.eq_of_endPoint_eq (List.prefix_append _ _) List.prefix_rfl heq.symm
        simpa using hsame

/-! ### The first visible character -/

section First

variable {parser : Parser} {before completion : String} {language : Option Language}
  {minRows : Nat} {blanks rest : List Char} {c : Char}

/-- A completion with a visible character is cut at the tightest block around it. -/
theorem trimToBlock_of_visible (hcompletion : completion.toList = blanks ++ c :: rest)
    (hblanks : ∀ b ∈ blanks, isBlank b = true) (hc : isBlank c = false) :
    (trimToBlock parser before completion language minRows).toList =
      match (tryParse parser (before ++ completion) language).ready? with
      | some tree => upToPoint before.toList completion.toList
          (Analysis.tightestBlock tree (endPoint (before.toList ++ blanks)) minRows
            defaultCeiling).stop
      | none => completion.toList := by
  -- the first visible character stands behind the blanks
  have htarget : Text.firstVisiblePoint? (before ++ completion).toList (byteSize before.toList) =
      some (endPoint (before.toList ++ blanks)) := by
    rw [String.toList_append, hcompletion, ← List.append_assoc]
    refine Text.firstVisiblePoint?_append (Text.noneVisible_append_blanks _ hblanks) ?_ hc rest
    rw [Text.byteSize_append]
    exact Nat.le_add_right _ _
  simp only [trimToBlock, htarget, Option.bind_eq_bind, Option.bind_some]
  cases (tryParse parser (before ++ completion) language).ready? with
  | none => rfl
  -- both ends are cuts of the same code, so the slice exists exactly where the offset does
  | some tree =>
    simp only [Option.bind_some, upToPoint, ← String.toList_append]
    split
    · next kept hkept => rw [hkept, String.toList_ofList, Option.getD_some]
    · next hnone => rw [hnone, Option.getD_none]

/-- A tree whose root ends with its text ends behind every shorter first part of it. -/
theorem lt_stopPoint_root {source : String} {tree : SyntaxTree}
    (htree : (tryParse parser source language).ready? = some tree)
    (hroot : tree.root.stop = byteSize source.toList) {shown : List Char}
    (hsource : source.toList = shown ++ c :: rest) :
    endPoint shown < tree.stopPoint tree.root := by
  obtain ⟨used, root, -, rfl⟩ := exists_root_of_tryParse htree
  have hend := Text.pointAt_byteSize_append source.toList []
  rw [List.append_nil] at hend
  rw [SyntaxTree.stopPoint, hroot, hend, hsource]
  exact Text.endPoint_lt_append shown c rest

/-- The blanks are kept, and nothing behind them exactly where one of the blocks around the first
visible character ends before it. -/
theorem exists_trimToBlock (hcompletion : completion.toList = blanks ++ c :: rest)
    (hblanks : ∀ b ∈ blanks, isBlank b = true) (hc : isBlank c = false)
    (hroot : ∀ tree, (tryParse parser (before ++ completion) language).ready? = some tree →
      tree.root.stop = byteSize (before ++ completion).toList) :
    let target := endPoint (before.toList ++ blanks)
    ∃ more, (trimToBlock parser before completion language minRows).toList = blanks ++ more ∧
      more <+: c :: rest ∧
      (more = [] ↔
        ∃ tree, (tryParse parser (before ++ completion) language).ready? = some tree ∧
          ∃ n ∈ blocksAround tree target minRows defaultCeiling, tree.stopPoint n = target) := by
  intro target
  rw [trimToBlock_of_visible hcompletion hblanks hc]
  cases htree : (tryParse parser (before ++ completion) language).ready? with
  -- without a tree nothing is cut, and the first character is kept
  | none => exact ⟨c :: rest, hcompletion, List.prefix_rfl, by simp⟩
  | some tree =>
    have hsource : (before ++ completion).toList = before.toList ++ blanks ++ c :: rest := by
      rw [String.toList_append, hcompletion, List.append_assoc]
    -- the block ends at the target or behind it, as the file itself goes on behind it
    obtain ⟨hle, hstop⟩ := Analysis.stop_tightestBlock minRows defaultCeiling
      (lt_stopPoint_root htree (hroot tree htree) hsource)
    obtain ⟨more, hmore, hprefix, hnil⟩ :=
      exists_upToPoint before.toList (List.cons_ne_nil c rest) hle
    rw [← hcompletion] at hmore
    exact ⟨more, hmore, hprefix, by rw [hnil, hstop]; simp [target]⟩

/-- **The first visible character is kept**, unless a block ends right before it. A completion with
a visible character is cut behind its leading blanks. It is cut right behind them exactly where the
search enters a block of the least height that starts at or before the first visible character and
ends at the point before it. In all other cases that character is kept. -/
theorem trimToBlock_keeps_first (parser : Parser) (before : String) {completion : String}
    (language : Option Language) (minRows : Nat)
    (hcompletion : completion.toList = blanks ++ c :: rest)
    (hblanks : ∀ b ∈ blanks, isBlank b = true) (hc : isBlank c = false)
    (hroot : ∀ tree, (tryParse parser (before ++ completion) language).ready? = some tree →
      tree.root.stop = byteSize (before ++ completion).toList) :
    let kept := (trimToBlock parser before completion language minRows).toList
    let target := endPoint (before.toList ++ blanks)
    kept <+: completion.toList ∧ blanks <+: kept ∧ (kept = blanks ∨ blanks ++ [c] <+: kept) ∧
      (kept = blanks ↔
        ∃ tree, (tryParse parser (before ++ completion) language).ready? = some tree ∧
          ∃ n ∈ (blockSearch tree target).take defaultCeiling, minRows ≤ height tree n ∧
            tree.startPoint n ≤ target ∧ tree.stopPoint n = target) := by
  intro kept target
  obtain ⟨more, hmore, hprefix, hiff⟩ : ∃ more, kept = blanks ++ more ∧ _ :=
    exists_trimToBlock hcompletion hblanks hc hroot
  rw [hmore]
  -- the blanks and, unless nothing more is kept, the character behind them
  refine ⟨?_, List.prefix_append blanks more, ?_, ?_⟩
  · rw [hcompletion]
    exact (List.prefix_append_right_inj blanks).2 hprefix
  · cases more with
    | nil => exact .inl (List.append_nil blanks)
    | cons d more =>
      obtain ⟨rfl, -⟩ := List.cons_prefix_cons.1 hprefix
      exact .inr ((List.prefix_append_right_inj blanks).2 ⟨more, rfl⟩)
  · rw [List.append_right_eq_self, hiff]
    refine exists_congr fun tree => and_congr_right fun _ => exists_congr fun n => ?_
    rw [Analysis.mem_blocksAround_iff]
    constructor
    -- a block around the target that ends there is a node that was met, and the reverse
    · rintro ⟨⟨hmem, hrows, hstart, -⟩, hstop⟩
      exact ⟨hmem, hrows, hstart, hstop⟩
    · rintro ⟨hmem, hrows, hstart, hstop⟩
      exact ⟨⟨hmem, hrows, hstart, ge_of_eq hstop⟩, hstop⟩

end First

/-- The body of a function: its braces, and between them the list of statements, which ends with its
line break right before the closing brace. -/
def functionBody : Node :=
  .mk ⟨"block", true, false, true, 9, 34⟩
    [.mk ⟨"\x7b", false, false, false, 9, 10⟩ [],
      .mk ⟨"statement_list", true, false, false, 12, 33⟩
        [.mk ⟨"expression_statement", true, false, false, 12, 32⟩ []],
      .mk ⟨"\x7d", false, false, false, 33, 34⟩ []]

/-- A file with a function. -/
def functionFile : Node :=
  .mk ⟨"source_file", true, false, false, 0, 34⟩
    [.mk ⟨"function_declaration", true, false, false, 0, 34⟩
      [.mk ⟨"func", false, false, false, 0, 4⟩ [],
        .mk ⟨"identifier", true, false, false, 5, 6⟩ [],
        .mk ⟨"parameter_list", true, false, false, 6, 8⟩ [],
        functionBody]]

/-- The tree of the file is well-formed. -/
theorem wellFormed_functionFile : functionFile.WellFormed := by
  have hleaf : ∀ label : Tree.Label, label.start ≤ label.stop → (Node.mk label []).WellFormed :=
    fun label h => Node.wellFormed_of_leaf rfl h
  -- the body is a list of statements between its braces
  have hbody : functionBody.WellFormed := by
    refine .intro ⟨Nat.le_of_ble_eq_true rfl, by decide, by decide, by decide⟩ ?_
    simp only [functionBody, Node.children, List.forall_mem_cons]
    refine ⟨hleaf _ (by decide), ?_, hleaf _ (by decide), by simp⟩
    refine .intro ⟨Nat.le_of_ble_eq_true rfl, by decide, by decide, by decide⟩ ?_
    simp only [Node.children, List.forall_mem_singleton]
    exact hleaf _ (by decide)
  refine .intro ⟨Nat.zero_le _, by decide, by decide, by decide⟩ ?_
  simp only [functionFile, Node.children, List.forall_mem_singleton]
  refine .intro ⟨Nat.zero_le _, by decide, by decide, by decide⟩ ?_
  simp only [Node.children, List.forall_mem_cons]
  exact ⟨hleaf _ (by decide), hleaf _ (by decide), hleaf _ (by decide), hbody, by simp⟩

/-- The completion is the brace that closes a function. The list of its statements has two rows and
ends right before the brace, so nothing of the completion is kept. -/
theorem trimToBlock_keeps_first_closingBrace :
    let before := "func f() \x7b\n\tfmt.Println(\"hello\")\n"
    let parser : Parser := fun _ _ => some functionFile
    trimToBlock parser before "\x7d" (some .go) 2 = "" ∧ functionFile.WellFormed ∧
      ∃ n ∈ (blockSearch ⟨before ++ "\x7d", .go, functionFile⟩ ⟨2, 0⟩).take defaultCeiling,
        SyntaxTree.stopPoint ⟨before ++ "\x7d", .go, functionFile⟩ n = ⟨2, 0⟩ := by
  intro before parser
  have hnothing : trimToBlock parser before "\x7d" (some .go) 2 = "" := by decide +kernel
  have hcompletion : "\x7d".toList = [] ++ '\x7d' :: [] := rfl
  have hroot : ∀ tree, (tryParse parser (before ++ "\x7d") (some .go)).ready? = some tree →
      tree.root.stop = byteSize (before ++ "\x7d").toList := by
    rintro tree ⟨⟩
    decide +kernel
  -- the empty answer can only come from a block that ends at the brace
  obtain ⟨-, -, -, hiff⟩ := trimToBlock_keeps_first parser before (some .go) 2 hcompletion
    (by simp) (by decide) hroot
  have htarget : endPoint (before.toList ++ []) = ⟨2, 0⟩ := by decide +kernel
  rw [hnothing, htarget] at hiff
  obtain ⟨tree, htree, n, hmem, -, -, hstop⟩ := hiff.1 rfl
  obtain rfl := Option.some.inj htree
  exact ⟨hnothing, wellFormed_functionFile, n, hmem, hstop⟩

end CodeAssist.Cleanup
