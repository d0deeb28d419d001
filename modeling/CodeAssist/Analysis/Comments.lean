import CodeAssist.Analysis.Kinds
import CodeAssist.Tree.Syntax
import CodeAssist.Tree.Walk

/-!
# Texts that are nothing but comments

A text consists of comments when every child of the root is a comment. The walk never goes deeper
and ends at the first child that is not one; a root without children counts.
-/

namespace CodeAssist.Analysis

open CodeAssist.Tree

/-- Keeps whether all nodes shown so far, the root apart, are of some kinds. -/
def onlyKindsVisitor (kinds : List String) : Visitor Bool where
  -- The root may be of any kind; only its children count.
  visit depth n only := only && (depth = 0 || kinds.contains n.kind)
  skips depth _ := depth ≠ 0
  stops only := !only

/-- Whether a text is nothing but comments. In PHP comments stand only inside tags that a piece of
code rarely carries, so there no text counts as comments. -/
def isAllComments (tree : SyntaxTree) (ceiling : Nat) : Bool :=
  match tree.language with
  | .php => false
  | language =>
    ((onlyKindsVisitor (kindTable language).comments).depthFirst tree.root ceiling true).2

end CodeAssist.Analysis
