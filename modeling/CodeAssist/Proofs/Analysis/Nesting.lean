import CodeAssist.Proofs.Analysis.Parsed
import CodeAssist.Proofs.Tree.AllNodes

/-!
# Nested spans

A tree is nested where every node holds its children, one behind the other (`Node.Nested`). Then a
node holds everything below it (`Node.Nested.span`), and of two nodes in pre-order the later one
lies below the earlier one or behind its end (`Node.Nested.pairwise_nodes`). There is no third place
for it, which is all that the order of a walk says about spans: in particular nodes start in the
order in which they are met (`Node.Nested.pairwise_start`).

Errors are nested in the other direction. Where a node has none, nothing below it has one
(`Node.WellFormed.hasError_eq_false`).
-/

namespace CodeAssist.Tree

open CodeAssist.Text (Point)

namespace Node

variable {root n m : Node}

/-- A node whose children lie within it, one behind the other. -/
structure Nests (n : Node) : Prop where
  forward : n.Forward
  within : ∀ child ∈ n.children, n.start ≤ child.start ∧ child.stop ≤ n.stop
  ordered : n.children.Pairwise fun a b => a.stop ≤ b.start

/-- A tree with nested spans. -/
def Nested (root : Node) : Prop := root.Every Nests

theorem WellFormed.nested (h : root.WellFormed) : root.Nested :=
  h.imp fun _ hn => ⟨hn.forward, hn.within, hn.ordered⟩

instance : DecidablePred Nests := fun n =>
  decidable_of_iff (n.start ≤ n.stop ∧
      (∀ child ∈ n.children, n.start ≤ child.start ∧ child.stop ≤ n.stop) ∧
      n.children.Pairwise fun a b => a.stop ≤ b.start)
    ⟨fun ⟨forward, within, ordered⟩ => ⟨forward, within, ordered⟩,
      fun h => ⟨h.forward, h.within, h.ordered⟩⟩

instance : DecidablePred Nested := fun _ => decidable_of_iff _ every_iff.symm

/-! ### Spans -/

/-- A node holds all nodes of its tree. -/
theorem Nested.span (h : n.Nested) (hm : m ∈ n.nodes) : n.start ≤ m.start ∧ m.stop ≤ n.stop := by
  -- the bounds of a node hold for its children, and theirs for what is below
  induction h with
  | @intro n here _ ih =>
    rw [nodes_eq, List.mem_cons, descendants, List.mem_flatMap] at hm
    rcases hm with rfl | ⟨child, hchild, hm⟩
    · exact ⟨le_refl _, le_refl _⟩
    · obtain ⟨hstart, hstop⟩ := here.within child hchild
      obtain ⟨hstart', hstop'⟩ := ih child hchild hm
      exact ⟨le_trans hstart hstart', le_trans hstop' hstop⟩

theorem Nested.of_mem_nodes (h : root.Nested) (hn : n ∈ root.nodes) : n.Nested :=
  Every.of_mem_nodes h hn

/-- **Siblings are apart**, and so are all nodes that belong to them. -/
theorem Nested.pairwise_children (h : n.Nested) :
    n.children.Pairwise fun c d => ∀ a ∈ c.nodes, ∀ b ∈ d.nodes, a.stop ≤ b.start := by
  refine h.here.ordered.imp_of_mem fun {c d} hc hd hle a ha b hb => ?_
  have hstop : a.stop ≤ c.stop := (Nested.span (h.of_mem_children c hc) ha).2
  have hstart : d.start ≤ b.start := (Nested.span (h.of_mem_children d hd) hb).1
  exact le_trans hstop (le_trans hle hstart)

/-- **Below or behind.** Of two nodes in pre-order the later one lies below the earlier one or
starts at its end or behind it. -/
theorem Nested.pairwise_nodes (h : root.Nested) :
    root.nodes.Pairwise fun a b => b ∈ a.descendants ∨ a.stop ≤ b.start := by
  induction h with
  | @intro n here hchildren ih =>
    rw [nodes_eq, List.pairwise_cons]
    -- nodes below one child are apart from those below another, as the children are
    have hapart := Nested.pairwise_children (.intro here hchildren)
    exact ⟨fun b hb => .inl hb, List.pairwise_flatMap.2
      ⟨ih, hapart.imp fun hcd a ha b hb => .inr (hcd a ha b hb)⟩⟩

/-- Nodes start in the order in which they are met. -/
theorem Nested.pairwise_start (h : root.Nested) :
    root.nodes.Pairwise fun a b => a.start ≤ b.start := by
  refine h.pairwise_nodes.imp_of_mem fun {a b} ha _ hab => ?_
  have hnested : a.Nested := h.of_mem_nodes ha
  -- a node below starts within, and one that is behind starts after the end
  rcases hab with hbelow | hbehind
  · exact (hnested.span (mem_nodes_of_mem_descendants hbelow)).1
  · exact le_trans hnested.here.forward hbehind

/-! ### Errors -/

/-- Nothing in the tree of a node without an error has one. -/
theorem WellFormed.hasError_eq_false (h : n.WellFormed) (hn : n.hasError = false)
    (hm : m ∈ n.nodes) : m.hasError = false := by
  induction h with
  | @intro n here _ ih =>
    rw [nodes_eq, List.mem_cons, descendants, List.mem_flatMap] at hm
    rcases hm with rfl | ⟨child, hchild, hm⟩
    · exact hn
    · -- an error of a child would be one of the node
      refine ih child hchild (Bool.eq_false_iff.2 fun herror => ?_) hm
      rw [here.hasError_of_mem child hchild herror] at hn
      exact Bool.noConfusion hn

end Node

/-! ### Points -/

namespace SyntaxTree

variable (tree : SyntaxTree) {a b : Node}

/-- Where one node holds another, so do its points. -/
theorem points_of_span (hstart : a.start ≤ b.start) (hstop : b.stop ≤ a.stop) :
    tree.startPoint a ≤ tree.startPoint b ∧ tree.stopPoint b ≤ tree.stopPoint a :=
  ⟨Text.pointAt_mono hstart _, Text.pointAt_mono hstop _⟩

/-- A row is met where it lies between those of the two points. -/
theorem meetsRow_iff {n : Node} {row : Nat} :
    tree.meetsRow n row = true ↔
      (tree.startPoint n).row ≤ row ∧ row ≤ (tree.stopPoint n).row := by
  rw [meetsRow, Bool.and_eq_true, decide_eq_true_iff, decide_eq_true_iff]

/-- **Rows from below.** A node meets all rows that the nodes of its tree meet. -/
theorem meetsRow_of_mem_nodes (ha : a.Nested) (hb : b ∈ a.nodes) {row : Nat}
    (hrow : tree.meetsRow b row = true) : tree.meetsRow a row = true := by
  obtain ⟨hfirst, hlast⟩ := tree.meetsRow_iff.1 hrow
  obtain ⟨hstart, hstop⟩ := ha.span hb
  obtain ⟨hstart, hstop⟩ := tree.points_of_span hstart hstop
  exact tree.meetsRow_iff.2
    ⟨le_trans (Point.row_le_of_le hstart) hfirst, le_trans hlast (Point.row_le_of_le hstop)⟩

end SyntaxTree

end CodeAssist.Tree
