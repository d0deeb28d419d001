import CodeAssist.Analysis.Blocks
import CodeAssist.Analysis.Symbols
import CodeAssist.Proofs.Analysis.Parsed
import CodeAssist.Proofs.Tree.Preorder

/-!
# Pruned searches and their ceiling

The search for a block leaves out what lies below the nodes off the row of its point, and the search
for errors what lies below the nodes without an error. A node that is passed over in this way still
uses up the ceiling. So what a search can be cut short by is not the size of a tree but the number
of children of the nodes on the row, or with an error (`length_blockSearch`, `length_errorSearch`).

A ceiling is harmless where no node that the search would have kept stands behind it
(`tightestBlock_ceiling`, `innermostErrors_ceiling`). None is harmless for all trees: in a file of
many statements side by side (`longFile`) the last one is not reached, however high the ceiling is
(`tightestBlock_longFile_ne`, `innermostErrors_longFile_ne`).

Main statement: `pruned_searches_under_ceiling`.
-/

namespace CodeAssist.Analysis

open CodeAssist.Text (Point byteSize endPoint)
open CodeAssist.Tree

/-! ### What a search enters -/

section Searches

variable (tree : SyntaxTree) (p : Point)

/-- The nodes that the search for a block enters where no ceiling ends it. -/
def blockSearch : List Node :=
  (Node.preorder (fun _ n => !tree.meetsRow n p.row) 0 tree.root).map Prod.snd

/-- The nodes that the search for errors enters where no ceiling ends it. -/
def errorSearch : List Node :=
  (Node.preorder (fun _ n => !n.hasError) 0 tree.root).map Prod.snd

/-- **Siblings of the nodes on the row count**, too. -/
theorem length_blockSearch :
    (blockSearch tree p).length =
      1 + Tokens.total (((blockSearch tree p).filter (tree.meetsRow · p.row)).map
        (·.children.length)) := by
  have h := Node.length_preorder (fun _ n => !tree.meetsRow n p.row) 0 tree.root
  rw [blockSearch, List.length_map, List.filter_map, List.map_map]
  simpa [Node.openedChildren, Function.comp_def] using h

/-- **Siblings of the nodes with an error count**, too. -/
theorem length_errorSearch :
    (errorSearch tree).length =
      1 + Tokens.total (((errorSearch tree).filter Node.hasError).map (·.children.length)) := by
  have h := Node.length_preorder (fun _ n => !n.hasError) 0 tree.root
  rw [errorSearch, List.length_map, List.filter_map, List.map_map]
  simpa [Node.openedChildren, Function.comp_def] using h

theorem length_blockSearch_le : (blockSearch tree p).length ≤ tree.root.size := by
  rw [blockSearch, List.length_map]
  exact Node.length_preorder_le _ 0 tree.root

theorem length_errorSearch_le : (errorSearch tree).length ≤ tree.root.size := by
  rw [errorSearch, List.length_map]
  exact Node.length_preorder_le _ 0 tree.root

variable {tree p} {minRows ceiling all : Nat}

theorem surrounds_iff {n : Node} :
    surrounds tree n p = true ↔ tree.startPoint n ≤ p ∧ p ≤ tree.stopPoint n := by
  rw [surrounds, Bool.and_eq_true, decide_eq_true_iff, decide_eq_true_iff]

theorem liesWithin_excerpt_iff {inner outer : Node} :
    liesWithin (tree.excerpt inner) (tree.excerpt outer) = true ↔
      tree.startPoint outer ≤ tree.startPoint inner ∧
        tree.stopPoint inner ≤ tree.stopPoint outer := by
  rw [liesWithin, Bool.and_eq_true, decide_eq_true_iff, decide_eq_true_iff]
  rfl

/-- **A ceiling is harmless** to the search for a block where no block of the least height around
the point stands behind it. -/
theorem tightestBlock_ceiling (hall : tree.root.size ≤ all)
    (hbehind : ∀ n ∈ (blockSearch tree p).drop ceiling,
      ¬ (minRows ≤ height tree n ∧ surrounds tree n p = true)) :
    tightestBlock tree p minRows ceiling = tightestBlock tree p minRows all := by
  -- a visit behind the ceiling changes nothing, whatever was found by then
  have hunchanged : ∀ entry ∈ (Node.preorder (blockVisitor tree p minRows).skips 0
      tree.root).drop ceiling, ∀ kept,
      (blockVisitor tree p minRows).enter entry.1 entry.2 kept = kept := by
    intro entry hentry kept
    have hmem : entry.2 ∈ (blockSearch tree p).drop ceiling := by
      rw [blockSearch, ← List.map_drop]
      exact List.mem_map_of_mem hentry
    have hnot := hbehind entry.2 hmem
    simp only [Visitor.enter, Visitor.wants, blockVisitor, if_true]
    rw [if_neg (by simpa using hnot)]
  rw [tightestBlock, tightestBlock,
    Visitor.depthFirst_ceiling (fun _ => rfl) hall hunchanged none]

/-- **A ceiling is harmless** to the search for errors where no node with an error stands behind
it. -/
theorem innermostErrors_ceiling (hall : tree.root.size ≤ all)
    (hbehind : ∀ n ∈ (errorSearch tree).drop ceiling, n.hasError = false) :
    innermostErrors tree ceiling = innermostErrors tree all := by
  -- a visit behind the ceiling changes nothing, whatever was found by then
  have hunchanged : ∀ entry ∈ (Node.preorder (errorVisitor tree).skips 0
      tree.root).drop ceiling, ∀ kept,
      (errorVisitor tree).enter entry.1 entry.2 kept = kept := by
    intro entry hentry kept
    have hmem : entry.2 ∈ (errorSearch tree).drop ceiling := by
      rw [errorSearch, ← List.map_drop]
      exact List.mem_map_of_mem hentry
    simp [Visitor.enter, Visitor.wants, errorVisitor, hbehind entry.2 hmem]
  rw [innermostErrors, innermostErrors,
    Visitor.depthFirst_ceiling (fun _ => rfl) hall hunchanged []]

end Searches

/-! ### Long files -/

/-- So many statements of one character, each on a row of its own. -/
def statementRows (count : Nat) : List Char :=
  (List.replicate count ['x', '\n']).flatten

theorem statementRows_add (m n : Nat) :
    statementRows (m + n) = statementRows m ++ statementRows n := by
  rw [statementRows, ← List.replicate_append_replicate, List.flatten_append, statementRows,
    statementRows]

theorem byteSize_statementRows (count : Nat) : byteSize (statementRows count) = 2 * count := by
  induction count with
  | zero => rfl
  | succ count ih =>
    rw [statementRows_add, Text.byteSize_append, ih]
    rfl

theorem endPoint_statementRows (count : Nat) : endPoint (statementRows count) = ⟨count, 0⟩ := by
  induction count with
  | zero => rfl
  | succ count ih =>
    rw [statementRows_add, Text.endPoint_append, ih]
    rfl

/-- The node of the statement on a row. -/
def statement (row : Nat) : Node :=
  .mk ⟨"expression_statement", true, false, false, 2 * row, 2 * row + 1⟩ []

/-- The node of a block of two rows with an error, which starts on a row. -/
def brokenBlock (row : Nat) : Node :=
  .mk ⟨"block", true, true, false, 2 * row, 2 * row + 3⟩ []

/-- A file of some statements and a broken block behind them. -/
def longFile (count : Nat) : SyntaxTree where
  source := String.ofList (statementRows count ++ ['\x7b', '\n', '\x7d'])
  language := .rust
  root := .mk ⟨"source_file", true, true, false, 0, 2 * count + 3⟩
    ((List.range count).map statement ++ [brokenBlock count])

/-- A point of a long file, by the text between the start of its row and the point. -/
theorem pointAt_longFile {row count : Nat} (first rest : List Char)
    (h : (longFile count).source.toList = statementRows row ++ (first ++ rest)) :
    Text.pointAt (2 * row + byteSize first) (longFile count).source.toList =
      (⟨row, 0⟩ : Point).absolute (endPoint first) := by
  rw [h, ← byteSize_statementRows, ← Text.byteSize_append, ← List.append_assoc,
    Text.pointAt_byteSize_append, Text.endPoint_append, endPoint_statementRows]

@[simp] theorem startPoint_root (count : Nat) :
    (longFile count).startPoint (longFile count).root = ⟨0, 0⟩ :=
  Text.pointAt_byteSize_append [] (longFile count).source.toList

@[simp] theorem stopPoint_root (count : Nat) :
    (longFile count).stopPoint (longFile count).root = ⟨count + 1, 1⟩ :=
  pointAt_longFile ['\x7b', '\n', '\x7d'] [] String.toList_ofList

@[simp] theorem startPoint_brokenBlock (count : Nat) :
    (longFile count).startPoint (brokenBlock count) = ⟨count, 0⟩ :=
  pointAt_longFile [] _ String.toList_ofList

@[simp] theorem stopPoint_brokenBlock (count : Nat) :
    (longFile count).stopPoint (brokenBlock count) = ⟨count + 1, 1⟩ :=
  pointAt_longFile ['\x7b', '\n', '\x7d'] [] String.toList_ofList

/-- A statement lies on one row. -/
theorem height_statement {row count : Nat} (h : row < count) :
    height (longFile count) (statement row) = 1 := by
  -- the rows below are given by their number, so that the source comes apart at the statement
  obtain ⟨others, rfl⟩ : ∃ others, count = row + (1 + others) := ⟨count - row - 1, by omega⟩
  have hsource : (longFile (row + (1 + others))).source.toList =
      statementRows row ++
        (['x'] ++ ('\n' :: (statementRows others ++ ['\x7b', '\n', '\x7d']))) := by
    rw [longFile, String.toList_ofList, statementRows_add, statementRows_add, List.append_assoc,
      List.append_assoc]
    rfl
  have hstart : (longFile (row + (1 + others))).startPoint (statement row) = ⟨row, 0⟩ :=
    pointAt_longFile [] _ hsource
  have hstop : (longFile (row + (1 + others))).stopPoint (statement row) = ⟨row, 1⟩ :=
    pointAt_longFile ['x'] _ hsource
  rw [height, hstart, hstop, Nat.sub_self]

/-- The tree of a long file is well-formed. -/
theorem wellFormed_longFile (count : Nat) : (longFile count).root.WellFormed := by
  -- every child is a leaf within the root's bounds
  have hchild : ∀ child ∈ (longFile count).root.children,
      child.children = [] ∧ child.start ≤ child.stop ∧ child.stop ≤ 2 * count + 3 := by
    intro child hmem
    rcases List.mem_append.1 hmem with hmem | hmem
    · obtain ⟨row, hrow, rfl⟩ := List.mem_map.1 hmem
      have hlt := List.mem_range.1 hrow
      refine ⟨rfl, ?_, ?_⟩ <;> simp only [statement, Node.start, Node.stop, Node.label] <;> omega
    · obtain rfl := List.mem_singleton.1 hmem
      refine ⟨rfl, ?_, ?_⟩ <;> simp only [brokenBlock, Node.start, Node.stop, Node.label] <;> omega
  refine .intro ⟨Nat.zero_le _, fun child hmem => ⟨Nat.zero_le _, (hchild child hmem).2.2⟩, ?_,
    fun _ _ _ => rfl⟩ fun child hmem =>
      Node.wellFormed_of_leaf (hchild child hmem).1 (hchild child hmem).2.1
  -- each statement ends before the next one starts
  refine List.pairwise_append.2 ⟨List.pairwise_map.2 ?_, List.pairwise_singleton _ _, ?_⟩
  · refine List.pairwise_lt_range.imp fun {a b} hlt => ?_
    simp only [statement, Node.start, Node.stop, Node.label]
    omega
  · intro child hmem block hblock
    obtain ⟨row, hrow, rfl⟩ := List.mem_map.1 hmem
    obtain rfl := List.mem_singleton.1 hblock
    have hlt := List.mem_range.1 hrow
    simp only [statement, brokenBlock, Node.start, Node.stop, Node.label]
    omega

/-! ### Searching long files -/

/-- A search that goes on below the root meets all statements before the block. -/
theorem preorder_longFile {skips : Nat → Node → Bool} {count : Nat}
    (hroot : skips 0 (longFile count).root = false) :
    Node.preorder skips 0 (longFile count).root = (0, (longFile count).root) ::
      ((List.range count).map (fun row => (1, statement row)) ++ [(1, brokenBlock count)]) := by
  -- a leaf is the whole of its own order, skipped or not
  have hleaf : ∀ n : Node, n.children = [] → Node.preorder skips 1 n = [(1, n)] := by
    intro n hchildren
    rw [Node.preorder_eq, hchildren, List.flatMap_nil, ite_self]
  have hstatements : ((List.range count).map statement).flatMap (Node.preorder skips 1) =
      (List.range count).map fun row => (1, statement row) := by
    rw [List.flatMap_map, List.map_eq_flatMap]
    exact congrArg (List.flatMap · _) (funext fun row => hleaf (statement row) rfl)
  rw [Node.preorder_eq, hroot, if_neg Bool.false_ne_true]
  change _ :: ((List.range count).map statement ++ [brokenBlock count]).flatMap _ = _
  rw [List.flatMap_append, hstatements, List.flatMap_singleton, hleaf (brokenBlock count) rfl]

section Walks

variable {σ : Type} {v : Visitor σ} {count ceiling : Nat}

/-- Statements that change nothing use up a ceiling before the block is met. -/
theorem depthFirst_longFile_of_le (hstops : ∀ s, v.stops s = false)
    (hroot : v.skips 0 (longFile count).root = false)
    (hstatement : ∀ row < count, ∀ s, v.enter 1 (statement row) s = s) (h : ceiling ≤ count)
    (s : σ) :
    (v.depthFirst (longFile count).root (ceiling + 1) s).2 = v.enter 0 (longFile count).root s := by
  rw [Visitor.depthFirst_eq_foldl hstops, preorder_longFile hroot, List.take_succ_cons,
    List.foldl_cons, List.take_append_of_le_length (by simpa using h)]
  refine Visitor.foldl_enter_of_unchanged (fun entry hentry => ?_) _
  obtain ⟨row, hrow, rfl⟩ := List.mem_map.1 (List.mem_of_mem_take hentry)
  exact hstatement row (List.mem_range.1 hrow)

/-- A ceiling that covers the file lets the block be met after the root. -/
theorem depthFirst_longFile_size (hstops : ∀ s, v.stops s = false)
    (hroot : v.skips 0 (longFile count).root = false)
    (hstatement : ∀ row < count, ∀ s, v.enter 1 (statement row) s = s) (s : σ) :
    (v.depthFirst (longFile count).root (longFile count).root.size s).2 =
      v.enter 1 (brokenBlock count) (v.enter 0 (longFile count).root s) := by
  have hstatements : ∀ s, ((List.range count).map fun row => (1, statement row)).foldl
      (fun s entry => v.enter entry.1 entry.2 s) s = s := by
    refine Visitor.foldl_enter_of_unchanged fun entry hentry => ?_
    obtain ⟨row, hrow, rfl⟩ := List.mem_map.1 hentry
    exact hstatement row (List.mem_range.1 hrow)
  rw [Visitor.depthFirst_eq_foldl hstops,
    List.take_of_length_le (Node.length_preorder_le v.skips 0 (longFile count).root),
    preorder_longFile hroot, List.foldl_cons, List.foldl_append, hstatements]
  rfl

end Walks

/-- The file and its block are different excerpts where there is a statement. -/
theorem excerpt_root_ne (count : Nat) :
    (longFile (count + 1)).excerpt (longFile (count + 1)).root ≠
      (longFile (count + 1)).excerpt (brokenBlock (count + 1)) := by
  intro h
  simpa [SyntaxTree.excerpt] using congrArg Excerpt.start h

/-- **The block of a long file is not found** under a ceiling that its statements use up. -/
theorem tightestBlock_longFile_ne (ceiling : Nat) :
    tightestBlock (longFile (ceiling + 1)) ⟨ceiling + 1, 0⟩ 2 ceiling ≠
      tightestBlock (longFile (ceiling + 1)) ⟨ceiling + 1, 0⟩ 2
        (longFile (ceiling + 1)).root.size := by
  let tree := longFile (ceiling + 1)
  let block := brokenBlock (ceiling + 1)
  let v := blockVisitor tree ⟨ceiling + 1, 0⟩ 2
  have hskips : v.skips 0 tree.root = false := by
    simp [v, tree, blockVisitor, SyntaxTree.meetsRow]
  have hstatement : ∀ row < ceiling + 1, ∀ kept, v.enter 1 (statement row) kept = kept := by
    intro row hrow kept
    simp [v, tree, blockVisitor, Visitor.enter, Visitor.wants, height_statement hrow]
  have hroot : v.enter 0 tree.root none = some (tree.excerpt tree.root) := by
    simp [v, tree, blockVisitor, Visitor.enter, Visitor.wants, height, surrounds, tighter,
      Text.Point.le_def]
  -- the file and the block end at one point, so the block is the better one of them
  have hblock : v.enter 1 block (some (tree.excerpt tree.root)) = some (tree.excerpt block) := by
    simp [v, tree, block, blockVisitor, Visitor.enter, Visitor.wants, height, surrounds, tighter,
      Text.Point.le_def, Text.Point.lt_def, SyntaxTree.excerpt]
  -- the search stops before the block, and the root is all that it found
  have hcut : tightestBlock tree ⟨ceiling + 1, 0⟩ 2 ceiling = tree.excerpt tree.root := by
    cases ceiling with
    | zero => rfl
    | succ ceiling =>
      rw [tightestBlock, depthFirst_longFile_of_le (fun _ => rfl) hskips hstatement (by omega),
        hroot, Option.getD_some]
  have hfull : tightestBlock tree ⟨ceiling + 1, 0⟩ 2 tree.root.size = tree.excerpt block := by
    rw [tightestBlock, depthFirst_longFile_size (fun _ => rfl) hskips hstatement, hroot, hblock,
      Option.getD_some]
  rw [hcut, hfull]
  exact excerpt_root_ne ceiling

/-- **The error of a long file is not found** under a ceiling that its statements use up. -/
theorem innermostErrors_longFile_ne (ceiling : Nat) :
    innermostErrors (longFile (ceiling + 1)) ceiling ≠
      innermostErrors (longFile (ceiling + 1)) (longFile (ceiling + 1)).root.size := by
  let tree := longFile (ceiling + 1)
  let block := brokenBlock (ceiling + 1)
  let v := errorVisitor tree
  have hstatement : ∀ row < ceiling + 1, ∀ kept, v.enter 1 (statement row) kept = kept :=
    fun _ _ _ => rfl
  have hroot : v.enter 0 tree.root [] = [tree.excerpt tree.root] := rfl
  -- the block lies within the file, so it is kept in place of it
  have hblock : v.enter 1 block [tree.excerpt tree.root] = [tree.excerpt block] := by
    have herror : (brokenBlock (ceiling + 1)).hasError = true := rfl
    simp [v, tree, block, errorVisitor, Visitor.enter, Visitor.wants, herror, keepInner, liesWithin,
      SyntaxTree.excerpt, Text.Point.le_def]
  have hfull : innermostErrors tree tree.root.size = [tree.excerpt block] := by
    rw [innermostErrors, depthFirst_longFile_size (fun _ => rfl) rfl hstatement, hroot, hblock]
  -- under the ceiling the root is the only error that was seen
  rw [hfull]
  cases ceiling with
  | zero => exact List.cons_ne_nil _ _ |>.symm
  | succ ceiling =>
    rw [innermostErrors, depthFirst_longFile_of_le (fun _ => rfl) rfl hstatement (by omega), hroot]
    exact fun h => excerpt_root_ne _ (List.cons.inj h).1

/-! ### Under a ceiling -/

/-- **Pruned searches under a ceiling.** A ceiling is harmless to a search where nothing that the
search would keep stands behind it, and what stands before is the root and the children of all nodes
that are on the row of the point, or have an error. So no ceiling is harmless to all well-formed
trees: behind as many statements as it lets be entered, a block with an error is missed. -/
theorem pruned_searches_under_ceiling (tree : SyntaxTree) (p : Point) (minRows ceiling : Nat)
    {all : Nat} (hall : tree.root.size ≤ all) :
    ((∀ n ∈ (blockSearch tree p).drop ceiling,
        ¬ (minRows ≤ height tree n ∧ surrounds tree n p = true)) →
      tightestBlock tree p minRows ceiling = tightestBlock tree p minRows all) ∧
    ((∀ n ∈ (errorSearch tree).drop ceiling, n.hasError = false) →
      innermostErrors tree ceiling = innermostErrors tree all) ∧
    (blockSearch tree p).length =
      1 + Tokens.total (((blockSearch tree p).filter (tree.meetsRow · p.row)).map
        (·.children.length)) ∧
    (errorSearch tree).length =
      1 + Tokens.total (((errorSearch tree).filter Node.hasError).map (·.children.length)) ∧
    ∀ ceiling, ∃ (crowded : SyntaxTree) (q : Point), crowded.root.WellFormed ∧
      tightestBlock crowded q 2 ceiling ≠ tightestBlock crowded q 2 crowded.root.size ∧
      innermostErrors crowded ceiling ≠ innermostErrors crowded crowded.root.size :=
  ⟨tightestBlock_ceiling hall, innermostErrors_ceiling hall, length_blockSearch tree p,
    length_errorSearch tree, fun ceiling => ⟨longFile (ceiling + 1), ⟨ceiling + 1, 0⟩,
      wellFormed_longFile (ceiling + 1), tightestBlock_longFile_ne ceiling,
      innermostErrors_longFile_ne ceiling⟩⟩

/-- A file of two functions, of which the second one has an error. -/
def twoFunctions : SyntaxTree where
  source := "f \x7b\n a; b\n\x7d\ng \x7b\n!\x7d"
  language := .rust
  root := .mk ⟨"source_file", true, true, false, 0, 18⟩
    [.mk ⟨"function_item", true, false, false, 0, 11⟩
      [.mk ⟨"identifier", true, false, false, 5, 6⟩ [],
        .mk ⟨"identifier", true, false, false, 8, 9⟩ []],
    .mk ⟨"function_item", true, true, false, 12, 18⟩
      [.mk ⟨"ERROR", true, true, false, 16, 17⟩ []]]

/-- Both searches pass over what lies below the first function, so four of six nodes are enough for
them. The thousand nodes of the default ceiling are not enough for every file. -/
theorem pruned_searches_under_ceiling_twoFunctions :
    tightestBlock twoFunctions ⟨3, 0⟩ 2 4 = tightestBlock twoFunctions ⟨3, 0⟩ 2 6 ∧
      innermostErrors twoFunctions 4 = innermostErrors twoFunctions 6 ∧
      ∃ (crowded : SyntaxTree) (q : Point), crowded.root.WellFormed ∧
        tightestBlock crowded q 2 defaultCeiling ≠
          tightestBlock crowded q 2 crowded.root.size ∧
        innermostErrors crowded defaultCeiling ≠ innermostErrors crowded crowded.root.size := by
  obtain ⟨hblock, herrors, -, -, hcrowded⟩ := pruned_searches_under_ceiling twoFunctions ⟨3, 0⟩ 2 4
    (show twoFunctions.root.size ≤ 6 by decide +kernel)
  exact ⟨hblock (by decide +kernel), herrors (by decide +kernel), hcrowded defaultCeiling⟩

end CodeAssist.Analysis
