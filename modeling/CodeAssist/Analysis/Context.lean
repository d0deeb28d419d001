import CodeAssist.Analysis.Kinds
import CodeAssist.Tree.Syntax
import CodeAssist.Tree.Walk

/-!
# The context of a cursor

Of the named nodes on the cursor's row, the most relevant one is of the kind that stands first in
the language's list, and of these the one met first. The text after the cursor within it is what a
suffix may be cut to.
-/

namespace CodeAssist.Analysis

open CodeAssist.Tree
open CodeAssist.Text (Point)

/-- Keeps the node of best rank on a row, with that rank. -/
def contextVisitor (tree : SyntaxTree) (row : Nat) (ranking : List String) :
    Visitor (Option (Nat × Excerpt)) where
  visit _ n best :=
    if n.named && tree.meetsRow n row then
      -- Of equal ranks the node met first stays.
      match ranking.findIdx? (· = n.kind), best with
      | none, _ => best
      | some rank, none => some (rank, tree.excerpt n)
      | some rank, some (bestRank, kept) =>
        if rank < bestRank then some (rank, tree.excerpt n) else some (bestRank, kept)
    else best
  skips _ n := !tree.meetsRow n row

/-- The most relevant node on the row of a point. -/
def contextAnchor? (tree : SyntaxTree) (p : Point) (ceiling : Nat) : Option Excerpt :=
  ((contextVisitor tree p.row (kindTable tree.language).context).depthFirst
    tree.root ceiling none).2.map Prod.snd

/-- The text behind a point within the most relevant node on its row. -/
def restOfAnchor? (tree : SyntaxTree) (p : Point) (ceiling : Nat) : Option String := do
  let anchor ← contextAnchor? tree p ceiling
  let parts ← Text.splitAtPoint? anchor.text.toList (anchor.start.relativeTo p)
  return String.ofList parts.2

end CodeAssist.Analysis
