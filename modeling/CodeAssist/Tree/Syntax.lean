import CodeAssist.Language
import CodeAssist.Text.Point
import CodeAssist.Tree.Node

/-!
# Syntax trees

A syntax tree belongs to a text: offsets of its nodes are read there as text and as points. A
parser is any function from languages and texts to trees; where it gives none, analyses of that
text are skipped.
-/

namespace CodeAssist.Tree

open CodeAssist.Text (Point)

/-! ### Parsed texts -/

/-- Answers the root of a text's syntax tree, or none where the text cannot be parsed. -/
abbrev Parser := Language → String → Option Node

/-- A parsed text. -/
structure SyntaxTree where
  source : String
  language : Language
  root : Node

/-- Text together with the points at which it starts and ends. -/
structure Excerpt where
  text : String
  start : Point
  stop : Point
deriving DecidableEq, Repr, Inhabited

namespace SyntaxTree

variable (tree : SyntaxTree)

/-! ### Nodes as text -/

/-- The source text between two offsets; empty where they are no cuts of it. -/
def textBetween (start stop : Nat) : List Char :=
  (Text.slice? start stop tree.source.toList).getD []

/-- The source text of a node. -/
def textOf (n : Node) : String :=
  String.ofList (tree.textBetween n.start n.stop)

/-! ### Nodes as points -/

/-- The point at which a node starts. -/
def startPoint (n : Node) : Point :=
  Text.pointAt n.start tree.source.toList

/-- The point behind a node. -/
def stopPoint (n : Node) : Point :=
  Text.pointAt n.stop tree.source.toList

/-- A node's text and points. -/
def excerpt (n : Node) : Excerpt :=
  ⟨tree.textOf n, tree.startPoint n, tree.stopPoint n⟩

/-- Whether a row is one of those on which a node lies. -/
def meetsRow (n : Node) (row : Nat) : Bool :=
  (tree.startPoint n).row ≤ row && row ≤ (tree.stopPoint n).row

end SyntaxTree

end CodeAssist.Tree
