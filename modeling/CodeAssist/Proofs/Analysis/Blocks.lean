import CodeAssist.Analysis.Blocks
import CodeAssist.Proofs.Analysis.Parsed
import Mathlib.Data.Nat.PSub

/-!
# Heights of blocks

The height of a block is a difference of rows, which has no value where a node ends on an earlier
row than it starts on. That does not happen as long as no node starts behind its end
(`Tree.Node.Forward`), whatever else its offsets are.

Main statement: `tightestBlockChecked?_eq` — the search for the tightest block around a point, done
with heights that may have no value, always has the value of the plain one.
-/

namespace CodeAssist

open CodeAssist.Tree
open CodeAssist.Text (Point)

namespace Analysis

variable (tree : SyntaxTree) (p : Point) (minRows : Nat)

/-- Number of rows on which a node lies. It has no value where a subtraction would go below
zero. -/
def heightChecked? (n : Node) : Option Nat := do
  let breaks ← Nat.psub (tree.stopPoint n).row (tree.startPoint n).row
  return breaks + 1

/-- Keeps the tightest block around a point. The state has no value once a height had none. -/
def blockVisitorChecked : Visitor (Option (Option Excerpt)) where
  visit _ n state := do
    let kept ← state
    let rows ← heightChecked? tree n
    return if minRows ≤ rows && surrounds tree n p then some (tighter kept (tree.excerpt n))
      else kept
  skips _ n := !tree.meetsRow n p.row

/-- The tightest block around a point, found with heights that may have no value. -/
def tightestBlockChecked? (ceiling : Nat) : Option Excerpt :=
  ((blockVisitorChecked tree p minRows).depthFirst tree.root ceiling (some none)).2.map
    (·.getD (tree.excerpt tree.root))

variable {tree p minRows}

/-- The height of a node that does not start behind its end has a value. -/
theorem heightChecked?_eq {n : Node} (h : n.Forward) :
    heightChecked? tree n = some (height tree n) := by
  have hrows := Nat.psub_eq_sub (tree.startPoint_row_le h)
  simp only [heightChecked?, hrows, Option.bind_eq_bind, Option.bind_some]
  rfl

/-- Both visitors go the same way, and the one that checks heights keeps what the other keeps. -/
theorem blockVisitorChecked_simulates (tree : SyntaxTree) (p : Point) (minRows : Nat) :
    (blockVisitorChecked tree p minRows).Simulates (blockVisitor tree p minRows) Node.Forward
      fun checked kept => checked = some kept where
  kinds := rfl
  skips := rfl
  stops _ _ _ := rfl
  visit depth n checked kept hn hkept := by
    simp only [blockVisitorChecked, blockVisitor, hkept, heightChecked?_eq hn,
      Option.bind_eq_bind, Option.bind_some]
    rfl

/-- **The search for a block never subtracts below zero.** -/
theorem tightestBlockChecked?_eq (h : tree.root.Every Node.Forward) (ceiling : Nat) :
    tightestBlockChecked? tree p minRows ceiling =
      some (tightestBlock tree p minRows ceiling) := by
  have hpending : ∀ entry ∈ [(0, tree.root)], entry.2.Every Node.Forward := by
    simpa using h
  -- the two visitors keep the same on nodes that do not run backwards, so the walks do
  have hwalk : ((blockVisitorChecked tree p minRows).depthFirst tree.root ceiling (some none)).2 =
      some ((blockVisitor tree p minRows).depthFirst tree.root ceiling none).2 :=
    ((blockVisitorChecked_simulates tree p minRows).walk hpending rfl).2
  rw [tightestBlockChecked?, hwalk]
  rfl

end Analysis

end CodeAssist
