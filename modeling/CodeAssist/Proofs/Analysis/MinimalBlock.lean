import CodeAssist.Proofs.Analysis.Nesting
import CodeAssist.Proofs.Analysis.Tightest

/-!
# The tightest block is minimal

The search for the tightest block looks at ends only: it takes the node that ends first, and the
last one of several that end there. In a nested tree this is enough. A node that is met earlier
starts no later, so it cannot lie strictly within the block; a node that is met later ends behind
it.

Nor does the pruning matter. A node holds all that lies below it, also in rows, so nothing around
the point lies below a node that does not meet the point's row.

Main statement: `tightestBlock_is_minimal`.
-/

namespace CodeAssist.Analysis

open CodeAssist.Tree
open CodeAssist.Text (Point)

variable {tree : SyntaxTree} {p : Point} {minRows ceiling : Nat}

/-- A node of a tree that has a least height and that a point lies in, the ends included. -/
structure IsCandidate (tree : SyntaxTree) (p : Point) (minRows : Nat) (n : Node) : Prop where
  mem : n ∈ tree.root.nodes
  high : minRows ≤ height tree n
  starts : tree.startPoint n ≤ p
  stops : p ≤ tree.stopPoint n

/-- The candidates for the tightest block, in pre-order. -/
def candidates (tree : SyntaxTree) (p : Point) (minRows : Nat) : List Node :=
  tree.root.nodes.filter fun n => minRows ≤ height tree n && surrounds tree n p

theorem mem_candidates_iff {n : Node} :
    n ∈ candidates tree p minRows ↔ IsCandidate tree p minRows n := by
  rw [candidates, List.mem_filter, Bool.and_eq_true, decide_eq_true_iff, surrounds_iff]
  constructor
  · rintro ⟨hmem, hhigh, hstarts, hstops⟩
    exact ⟨hmem, hhigh, hstarts, hstops⟩
  · intro h
    exact ⟨h.mem, h.high, h.starts, h.stops⟩

/-! ### Pruning by rows -/

/-- A node around a point meets the point's row, and so does every node that holds it. -/
theorem meetsRow_of_surrounds {n m : Node} (hn : n.Nested) (hm : m ∈ n.nodes)
    (hp : surrounds tree m p = true) : tree.meetsRow n p.row = true := by
  obtain ⟨hstarts, hstops⟩ := surrounds_iff.1 hp
  exact tree.meetsRow_of_mem_nodes hn hm
    (tree.meetsRow_iff.2 ⟨Point.row_le_of_le hstarts, Point.row_le_of_le hstops⟩)

/-- Nothing around a point lies below a node that the search prunes. -/
theorem blocksAround_eq_candidates (h : tree.root.Nested) (hall : tree.root.size ≤ ceiling) :
    blocksAround tree p minRows ceiling = candidates tree p minRows := by
  have hlength : (blockSearch tree p).length ≤ ceiling :=
    le_trans (length_blockSearch_le tree p) hall
  rw [blocksAround, List.take_of_length_le hlength, candidates]
  refine Node.filter_preorder (h.every.imp fun n hn depth hoff m hm => ?_) 0
  -- a candidate below the node would make it meet the row
  refine Bool.eq_false_iff.2 fun hwanted => ?_
  have hp := (Bool.and_eq_true_iff.1 hwanted).2
  rw [meetsRow_of_surrounds hn (Node.mem_nodes_of_mem_descendants hm) hp] at hoff
  exact Bool.noConfusion hoff

/-- A visitor that looks below every node. -/
def unprunedVisitor (tree : SyntaxTree) (p : Point) (minRows : Nat) : Visitor (Option Excerpt) :=
  { blockVisitor tree p minRows with skips := fun _ _ => false }

/-- Without pruning all candidates are compared, and with pruning no others. -/
theorem tightestBlock_eq_unpruned (h : tree.root.Nested) (hall : tree.root.size ≤ ceiling) :
    tightestBlock tree p minRows ceiling =
      ((unprunedVisitor tree p minRows).depthFirst tree.root ceiling none).2.getD
        (tree.excerpt tree.root) := by
  have hunpruned : ((unprunedVisitor tree p minRows).depthFirst tree.root ceiling none).2 =
      (candidates tree p minRows).foldl (fun kept n => some (tighter kept (tree.excerpt n))) none :=
    Visitor.depthFirst_eq_foldl_filter (fun _ _ _ => rfl) (fun _ => rfl)
      (h.imp fun _ _ _ hskips => absurd hskips Bool.false_ne_true) hall none
  rw [tightestBlock_eq, blocksAround_eq_candidates h hall, hunpruned]

/-! ### Minimality -/

/-- **A candidate within the node that ends first** has the same points. -/
theorem EndsFirst.points_eq (h : tree.root.Nested) {n m : Node}
    (hn : EndsFirst tree n (candidates tree p minRows)) (hm : m ∈ candidates tree p minRows)
    (hwithin : liesWithin (tree.excerpt m) (tree.excerpt n) = true) :
    tree.startPoint m = tree.startPoint n ∧ tree.stopPoint m = tree.stopPoint n := by
  obtain ⟨hstart, hstop⟩ := liesWithin_excerpt_iff.1 hwithin
  have hpairwise : (candidates tree p minRows).Pairwise fun a b => a.start ≤ b.start :=
    h.pairwise_start.filter _
  -- an earliest end on one side, lying within on the other
  have hends : tree.stopPoint m = tree.stopPoint n := le_antisymm hstop (hn.stopPoint_le hm)
  obtain ⟨earlier, later, hsplit, -, hlater⟩ := hn
  refine ⟨?_, hends⟩
  rw [hsplit, List.mem_append, List.mem_cons] at hm
  rcases hm with hm | rfl | hm
  · -- met earlier, so it starts no later
    rw [hsplit, List.pairwise_append] at hpairwise
    have hle : m.start ≤ n.start := hpairwise.2.2 m hm n List.mem_cons_self
    exact le_antisymm (Text.pointAt_mono hle _) hstart
  · rfl
  -- one that is met later ends later
  · exact absurd hends (ne_of_gt (hlater m hm))

/-- **The tightest block is minimal.** In a nested tree, with a ceiling that covers it, what is
answered is a candidate with no other candidate strictly within it, or the whole text where there
is no candidate. A search that prunes nothing has the same answer. -/
theorem tightestBlock_is_minimal (h : tree.root.Nested) (p : Point) (minRows : Nat)
    (hall : tree.root.size ≤ ceiling) :
    ((∃ n, IsCandidate tree p minRows n ∧
          tightestBlock tree p minRows ceiling = tree.excerpt n ∧
          ∀ m, IsCandidate tree p minRows m →
            liesWithin (tree.excerpt m) (tree.excerpt n) = true →
            tree.startPoint m = tree.startPoint n ∧ tree.stopPoint m = tree.stopPoint n) ∨
        (∀ n, ¬ IsCandidate tree p minRows n) ∧
          tightestBlock tree p minRows ceiling = tree.excerpt tree.root) ∧
      tightestBlock tree p minRows ceiling =
        ((unprunedVisitor tree p minRows).depthFirst tree.root ceiling none).2.getD
          (tree.excerpt tree.root) := by
  refine ⟨?_, tightestBlock_eq_unpruned h hall⟩
  rcases tightestBlock_cases tree p minRows ceiling with ⟨hnone, hblock⟩ | ⟨n, hn, hblock⟩
  -- no candidate was met, so there is none: `candidates` lists them all
  · rw [blocksAround_eq_candidates h hall] at hnone
    refine .inr ⟨fun n hn => ?_, hblock⟩
    rw [← mem_candidates_iff, hnone] at hn
    cases hn
  · rw [blocksAround_eq_candidates h hall] at hn
    exact .inl ⟨n, mem_candidates_iff.1 hn.mem, hblock, fun m hm =>
      hn.points_eq h (mem_candidates_iff.2 hm)⟩

/-- Two blocks of two rows that touch. -/
def touchingBlocks : SyntaxTree where
  source := "\x7b\n\x7d\x7b\n\x7d"
  language := .rust
  root := .mk ⟨"source_file", true, false, false, 0, 6⟩
    [.mk ⟨"block", true, false, false, 0, 3⟩ [], .mk ⟨"block", true, false, false, 3, 6⟩ []]

/-- The point at which they touch lies in both, and in the file. The first block is answered, which
does not hold the second one. -/
theorem tightestBlock_is_minimal_touchingBlocks :
    touchingBlocks.root.Nested ∧ touchingBlocks.root.size ≤ 3 ∧
      (candidates touchingBlocks ⟨1, 1⟩ 2).length = 3 ∧
      tightestBlock touchingBlocks ⟨1, 1⟩ 2 3 = ⟨"\x7b\n\x7d", ⟨0, 0⟩, ⟨1, 1⟩⟩ ∧
      ∃ n, IsCandidate touchingBlocks ⟨1, 1⟩ 2 n ∧
        tightestBlock touchingBlocks ⟨1, 1⟩ 2 3 = touchingBlocks.excerpt n ∧
        ∀ m, IsCandidate touchingBlocks ⟨1, 1⟩ 2 m →
          liesWithin (touchingBlocks.excerpt m) (touchingBlocks.excerpt n) = true →
          touchingBlocks.startPoint m = touchingBlocks.startPoint n ∧
            touchingBlocks.stopPoint m = touchingBlocks.stopPoint n := by
  have hleaf : ∀ n : Node, n.children = [] → n.Forward → n.Nested :=
    fun n hchildren hforward => (Node.wellFormed_of_leaf hchildren hforward).nested
  have hnested : touchingBlocks.root.Nested := by
    refine .intro ⟨Nat.zero_le 6, by decide, by decide⟩ ?_
    intro child hchild
    rcases List.mem_pair.1 hchild with rfl | rfl
    · exact hleaf _ rfl (Nat.zero_le 3)
    · exact hleaf _ rfl (Nat.le_add_right 3 3)
  have hsize : touchingBlocks.root.size ≤ 3 := by decide +kernel
  have hcandidates : (candidates touchingBlocks ⟨1, 1⟩ 2).length = 3 := by decide +kernel
  refine ⟨hnested, hsize, hcandidates, by decide +kernel, ?_⟩
  -- three candidates stand around the point, so the search does not fall back to the root
  refine (tightestBlock_is_minimal hnested ⟨1, 1⟩ 2 hsize).1.resolve_right fun hnone => ?_
  have hpos : 0 < (candidates touchingBlocks ⟨1, 1⟩ 2).length := by
    rw [hcandidates]
    exact Nat.zero_lt_succ 2
  obtain ⟨n, hn⟩ := List.exists_mem_of_length_pos hpos
  exact hnone.1 n (mem_candidates_iff.1 hn)

end CodeAssist.Analysis
