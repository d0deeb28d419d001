/-!
# Nodes of a syntax tree

A node has a kind, a span of byte offsets, three marks that the parser sets, and children in the
order of the text. Unnamed nodes such as brackets and keywords are children like any other.

`Node.sizes` counts the nodes of a forest; it is what a walk over the tree uses up.
-/

namespace CodeAssist.Tree

/-- What the parser says about a node apart from its children. -/
structure Label where
  kind : String
  /-- Whether the grammar gives the node a name of its own. -/
  named : Bool
  /-- Whether the node is, or contains, a syntax error. -/
  hasError : Bool
  /-- Whether the node is its parent's body field. -/
  isBody : Bool
  /-- Byte offset of the first byte. -/
  start : Nat
  /-- Byte offset behind the last byte. -/
  stop : Nat
deriving DecidableEq, Repr, Inhabited

/-- A node with its children. -/
inductive Node where
  | mk (label : Label) (children : List Node)
deriving Inhabited

namespace Node

/-- The label of a node. -/
def label : Node → Label
  | mk label _ => label

/-- The children of a node, in the order of the text. -/
def children : Node → List Node
  | mk _ children => children

/-- The kind of a node. -/
def kind (n : Node) : String := n.label.kind

/-- Whether the grammar gives a node a name of its own. -/
def named (n : Node) : Bool := n.label.named

/-- Whether a node is, or contains, a syntax error. -/
def hasError (n : Node) : Bool := n.label.hasError

/-- Whether a node is its parent's body field. -/
def isBody (n : Node) : Bool := n.label.isBody

/-- The byte offset of a node's first byte. -/
def start (n : Node) : Nat := n.label.start

/-- The byte offset behind a node's last byte. -/
def stop (n : Node) : Nat := n.label.stop

/-! ### Counting nodes -/

mutual
/-- Number of nodes of a tree. -/
def size : Node → Nat
  | mk _ children => sizes children + 1

/-- Number of nodes of a forest. -/
def sizes : List Node → Nat
  | [] => 0
  | n :: ns => n.size + sizes ns
end

/-- A tree is its root and the forest below it. -/
theorem size_eq (n : Node) : n.size = sizes n.children + 1 := by
  cases n; simp [size, children]

/-- Forests side by side have as many nodes as both together. -/
theorem sizes_append (a b : List Node) : sizes (a ++ b) = sizes a + sizes b := by
  induction a with
  | nil => simp [sizes]
  | cons n a ih => simp [sizes, ih, Nat.add_assoc]

/-! ### Levels -/

/-- The children of all nodes of a forest, in order. -/
def nextLevel (ns : List Node) : List Node :=
  ns.flatMap children

/-- **Levels shrink.** The forest below a level has one node less for each root of the level. -/
theorem sizes_nextLevel (ns : List Node) : sizes (nextLevel ns) + ns.length = sizes ns := by
  induction ns with
  | nil => rfl
  | cons n ns ih =>
    rw [nextLevel, List.flatMap_cons, ← nextLevel, sizes_append, sizes, List.length_cons, ← ih,
      n.size_eq]
    omega

end Node

end CodeAssist.Tree
