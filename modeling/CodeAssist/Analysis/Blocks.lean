import CodeAssist.Tree.Syntax
import CodeAssist.Tree.Walk

/-!
# Blocks around a point and blocks with errors

`tightestBlock` is the tightest block of a least height around a point; the walk leaves out
nodes whose rows do not meet the point. `innermostErrors` are the innermost nodes with a syntax
error: a node that is met later replaces the nodes around it that were kept so far.
-/

namespace CodeAssist.Analysis

open CodeAssist.Tree
open CodeAssist.Text (Point)

/-! ### The tightest block -/

/-- Number of rows on which a node lies. -/
def height (tree : SyntaxTree) (n : Node) : Nat :=
  (tree.stopPoint n).row - (tree.startPoint n).row + 1

/-- Whether a point lies in a node, its ends included. -/
def surrounds (tree : SyntaxTree) (n : Node) (p : Point) : Bool :=
  tree.startPoint n ≤ p && p ≤ tree.stopPoint n

/-- The better of a kept block and a new one: the one that ends first, the new one on a tie. -/
def tighter (kept : Option Excerpt) (block : Excerpt) : Excerpt :=
  match kept with
  | some old => if old.stop < block.stop then old else block
  | none => block

/-- Keeps the tightest block of at least `minRows` rows around a point. -/
def blockVisitor (tree : SyntaxTree) (p : Point) (minRows : Nat) : Visitor (Option Excerpt) where
  visit _ n kept :=
    if minRows ≤ height tree n && surrounds tree n p then some (tighter kept (tree.excerpt n))
    else kept
  -- What lies below a node lies on its rows.
  skips _ n := !tree.meetsRow n p.row

/-- The tightest block of at least `minRows` rows around a point, or the whole text where there is
none. -/
def tightestBlock (tree : SyntaxTree) (p : Point) (minRows ceiling : Nat) : Excerpt :=
  ((blockVisitor tree p minRows).depthFirst tree.root ceiling none).2.getD
    (tree.excerpt tree.root)

/-! ### Errors -/

/-- Whether one excerpt's span lies within another's. -/
def liesWithin (inner outer : Excerpt) : Bool :=
  outer.start ≤ inner.start && inner.stop ≤ outer.stop

/-- Keeps an erroneous node in place of those that span it. -/
def keepInner (kept : List Excerpt) (inner : Excerpt) : List Excerpt :=
  kept.filter (fun outer => !liesWithin inner outer) ++ [inner]

/-- Collects the innermost nodes with an error. -/
def errorVisitor (tree : SyntaxTree) : Visitor (List Excerpt) where
  visit _ n kept := if n.hasError then keepInner kept (tree.excerpt n) else kept
  -- A node without an error contains none.
  skips _ n := !n.hasError

/-- The innermost nodes with a syntax error. -/
def innermostErrors (tree : SyntaxTree) (ceiling : Nat) : List Excerpt :=
  ((errorVisitor tree).depthFirst tree.root ceiling []).2

end CodeAssist.Analysis
