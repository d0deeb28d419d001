import CodeAssist.Tree.Node

/-!
# Walks over a tree

A visitor is shown nodes and keeps a state. A depth-first walk enters the nodes in pre-order: it
leaves out what lies below the nodes whose children the visitor skips, and it ends when the visitor
asks for it or when a ceiling of entered nodes is reached. Passed-over kinds count as entered. A
breadth-first walk goes level by level below the root and has a greatest depth in place of a
ceiling.

The ceiling is what the depth-first recursion runs on. The breadth-first one keeps two queues, one
with the rest of a level and one with the level below as far as it is known; it ends because each
node that it takes from the first queue is replaced by its children only.
-/

namespace CodeAssist.Tree

/-- What a walk shows its nodes to. Depths count from the root, which has depth zero. -/
structure Visitor (σ : Type) where
  /-- The kinds of the nodes to be shown; none stands for all of them. -/
  kinds : Option (List String) := none
  /-- The state after a node has been shown. -/
  visit : Nat → Node → σ → σ
  /-- Whether to leave out what lies below a node. -/
  skips : Nat → Node → Bool := fun _ _ => false
  /-- Whether to end the walk. -/
  stops : σ → Bool := fun _ => false

namespace Visitor

variable {σ : Type} (v : Visitor σ)

/-! ### Depth first -/

/-- Whether a node is of the kinds to be shown. -/
def wants (n : Node) : Bool :=
  match v.kinds with
  | none => true
  | some kinds => kinds.contains n.kind

/-- The state after a node has been entered. -/
def enter (depth : Nat) (n : Node) (s : σ) : σ :=
  if v.wants n then v.visit depth n s else s

/-- The nodes to enter next below a node, with their depth. -/
def below (depth : Nat) (n : Node) : List (Nat × Node) :=
  if v.skips depth n then [] else n.children.map (depth + 1, ·)

/-- Enters at most `ceiling` nodes, those of the list and what lies below each of them, and counts
the nodes entered. The visitor is asked whether to end before and after each node. -/
def walk : (ceiling : Nat) → List (Nat × Node) → σ → Nat × σ
  | 0, _, s => (0, s)
  | _, [], s => (0, s)
  | ceiling + 1, (depth, n) :: rest, s =>
    if v.stops s then (0, s) else
    -- A node counts as entered even where its kind is passed over.
    let s := v.enter depth n s
    if v.stops s then (1, s) else
    -- Pre-order: what lies below the node comes before its siblings.
    let (entered, s) := walk ceiling (v.below depth n ++ rest) s
    (entered + 1, s)

/-- The depth-first walk from a root: the number of nodes entered and the last state. -/
def depthFirst (root : Node) (ceiling : Nat) (s : σ) : Nat × σ :=
  v.walk ceiling [(0, root)] s

end Visitor

/-! ### Level by level -/

/-- Goes through nodes level by level, with a state that `visit` changes and by which it may end the
walk. Of the level at `depth` there is `current` left, and `next` holds the children of what was
taken from it. Levels below `maxDepth` are left out, unless it is negative. -/
def walkLevels {σ : Type} (maxDepth : Int) (visit : Nat → Node → σ → ForInStep σ) (depth : Nat) :
    (current next : List Node) → σ → σ
  | [], _, s => s
  | n :: rest, next, s =>
    match visit depth n s with
    | .done s => s
    | .yield s =>
      if rest ≠ [] then walkLevels maxDepth visit depth rest (next ++ n.children) s
      else if next ++ n.children = [] then s
      -- The level is done, and the one below it may be too deep.
      else if 0 ≤ maxDepth ∧ maxDepth < depth + 1 then s
      else walkLevels maxDepth visit (depth + 1) (next ++ n.children) [] s
termination_by current next => Node.sizes current + Node.sizes next
decreasing_by
  all_goals
    simp only [Node.sizes, Node.sizes_append, n.size_eq]
    omega

/-- The nodes below a root, level by level, each with its depth, where the root's children have
depth zero. Levels below `maxDepth` are left out, unless it is negative. -/
def breadthFirst (root : Node) (maxDepth : Int) : List (Nat × Node) :=
  (walkLevels maxDepth (fun depth n found => .yield ((depth, n) :: found)) 0 root.children []
    []).reverse

namespace Visitor

variable {σ : Type} (v : Visitor σ)

/-- Shows a node, unless the visitor asks to end before that. -/
def step (depth : Nat) (n : Node) (s : σ) : ForInStep σ :=
  if v.stops s then .done s else .yield (v.enter depth n s)

/-- The breadth-first walk below a root: the state after the nodes were shown level by level, until
the visitor asks to end. -/
def visitLevels (root : Node) (maxDepth : Int) (s : σ) : σ :=
  -- The visitor counts depths from the root, the walk counts them from its children.
  walkLevels maxDepth (fun depth => v.step (depth + 1)) 0 root.children [] s

end Visitor

end CodeAssist.Tree
