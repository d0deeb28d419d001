import CodeAssist.Proofs.Tree.Preorder
import Mathlib.Data.List.Basic

/-!
# All nodes of a tree

What a tree holds is said by the list of its nodes in pre-order (`Node.nodes`), the order of a walk
that leaves nothing out. A node comes before its children (`Node.mem_of_suffix_nodes`), and what is
known of all nodes of a tree in the sense of `Node.Every` is known of the members of the list
(`Node.Every.of_mem_nodes`).

A pruned walk has a shorter order. It still meets every node that is looked for, and meets them in
the same order, where none of them lies below a node that is pruned (`Node.filter_preorder`). So
pruning is judged by what lies below a node (`Node.descendants`), and no walk has to be compared
with another one. What a complete walk does is then known from the nodes that are looked for, pruned
or not (`Visitor.depthFirst_eq_foldl_filter`).
-/

namespace CodeAssist.Tree

namespace Node

mutual
/-- All nodes of a tree, in pre-order. -/
def nodes : Node → List Node
  | mk label children => mk label children :: forestNodes children

/-- All nodes of a forest, tree by tree. -/
def forestNodes : List Node → List Node
  | [] => []
  | n :: ns => nodes n ++ forestNodes ns
end

/-- All nodes below a node, in pre-order. -/
def descendants (n : Node) : List Node :=
  n.children.flatMap nodes

theorem forestNodes_eq (ns : List Node) : forestNodes ns = ns.flatMap nodes := by
  induction ns with
  | nil => rfl
  | cons n ns ih => rw [forestNodes, ih, List.flatMap_cons]

/-- A node comes first among the nodes of its tree. -/
theorem nodes_eq (n : Node) : n.nodes = n :: n.descendants := by
  cases n with
  | mk label children => rw [nodes, forestNodes_eq, descendants, Node.children]

theorem mem_nodes_self (n : Node) : n ∈ n.nodes := by
  rw [nodes_eq]
  exact List.mem_cons_self

theorem mem_nodes_of_mem_descendants {n m : Node} (h : m ∈ n.descendants) : m ∈ n.nodes := by
  rw [nodes_eq]
  exact List.mem_cons_of_mem n h

theorem sizeOf_lt_of_mem_children {n child : Node} (h : child ∈ n.children) :
    sizeOf child < sizeOf n := by
  cases n with
  | mk label children =>
    have hlt : sizeOf child < sizeOf children := List.sizeOf_lt_of_mem h
    rw [mk.sizeOf_spec]
    omega

/-- What holds of a node where it holds of its children holds of all nodes. -/
@[elab_as_elim]
theorem induction {P : Node → Prop} (step : ∀ n, (∀ child ∈ n.children, P child) → P n)
    (n : Node) : P n :=
  step n fun child _hchild => induction step child
termination_by sizeOf n
decreasing_by exact sizeOf_lt_of_mem_children _hchild

/-! ### Facts about all nodes -/

theorem Every.imp {P Q : Node → Prop} {n : Node} (h : n.Every P) (hPQ : ∀ m, P m → Q m) :
    n.Every Q := by
  induction h with
  | intro here _ ih => exact .intro (hPQ _ here) ih

/-- What is known of all nodes of a tree is known of all nodes below each of them. -/
theorem Every.of_mem_nodes {P : Node → Prop} {n m : Node} (h : n.Every P) (hm : m ∈ n.nodes) :
    m.Every P := by
  induction h with
  | @intro n here below ih =>
    rw [nodes_eq, List.mem_cons, Node.descendants, List.mem_flatMap] at hm
    rcases hm with rfl | ⟨child, hchild, hm⟩
    · exact .intro here below
    · exact ih child hchild hm

/-- What is known of a tree is what is known of its nodes. -/
theorem every_iff {P : Node → Prop} {n : Node} : n.Every P ↔ ∀ m ∈ n.nodes, P m := by
  -- each node's own tree is a part of the list, so the children are known by the induction
  refine ⟨fun h m hm => (h.of_mem_nodes hm).here, fun h => ?_⟩
  induction n using Node.induction with
  | step n ih =>
    rw [nodes_eq, List.forall_mem_cons] at h
    refine .intro h.1 fun child hchild => ih child hchild fun m hm => h.2 m ?_
    exact List.mem_flatMap.2 ⟨child, hchild, hm⟩

/-- What is known of all nodes of a tree may be used to know more of each of them. -/
theorem Every.every {P : Node → Prop} {n : Node} (h : n.Every P) : n.Every (Every P) := by
  induction h with
  | intro here below ih => exact .intro (.intro here below) ih

/-! ### The order of the nodes -/

/-- The elements behind an element of a joined list stand in its own part or in later ones. -/
theorem exists_suffix_of_flatMap {α β : Type} {f : α → List β} {as : List α} {b : β}
    {behind : List β} (h : b :: behind <:+ as.flatMap f) :
    ∃ a ∈ as, ∃ own, b :: own <:+ f a ∧ own ⊆ behind := by
  induction as with
  | nil => cases List.suffix_nil.1 h
  | cons a as ih =>
    rw [List.flatMap_cons] at h
    obtain ⟨before, hbefore⟩ := h
    rcases List.append_eq_append_iff.1 hbefore with ⟨own, hf, hbehind⟩ | ⟨between, -, hrest⟩
    · cases own with
      | nil =>
        -- the element is the first one of a later part
        obtain ⟨a', ha', hlater⟩ := ih ⟨[], hbehind⟩
        exact ⟨a', List.mem_cons_of_mem a ha', hlater⟩
      | cons b' own =>
        obtain ⟨rfl, rfl⟩ := List.cons.inj hbehind
        exact ⟨a, List.mem_cons_self, own, ⟨before, hf.symm⟩, List.subset_append_left _ _⟩
    -- the part ends before the element, which belongs to a later one
    · obtain ⟨a', ha', hlater⟩ := ih ⟨between, hrest.symm⟩
      exact ⟨a', List.mem_cons_of_mem a ha', hlater⟩

/-- **Children come behind their node.** -/
theorem mem_of_suffix_nodes {root n : Node} {behind : List Node} (h : n :: behind <:+ root.nodes) :
    ∀ child ∈ n.children, child ∈ behind := by
  induction root using Node.induction generalizing n behind with
  | step root ih =>
    rw [nodes_eq, List.suffix_cons_iff] at h
    -- the node is the root itself, or one of a child's tree, behind which more nodes only follow
    rcases h with heq | hbelow
    · obtain ⟨rfl, rfl⟩ := List.cons.inj heq
      exact fun child hchild => List.mem_flatMap.2 ⟨child, hchild, mem_nodes_self child⟩
    · obtain ⟨part, hpart, own, hown, hsubset⟩ := exists_suffix_of_flatMap hbelow
      exact fun child hchild => hsubset (ih part hpart hown child hchild)

/-! ### Pruned orders -/

/-- **Harmless pruning.** Where nothing that is looked for lies below a node that is pruned, a
pruned order holds the same of it as the list of all nodes. -/
theorem filter_preorder {skips : Nat → Node → Bool} {wanted : Node → Bool} {n : Node}
    (h : n.Every fun m => ∀ depth, skips depth m = true → ∀ b ∈ m.descendants, wanted b = false)
    (depth : Nat) :
    ((preorder skips depth n).map Prod.snd).filter wanted = n.nodes.filter wanted := by
  induction h generalizing depth with
  | @intro n here _ ih =>
    rw [preorder_eq, nodes_eq, List.map_cons, List.filter_cons, List.filter_cons]
    -- the node itself is met in both, so only what lies below it is compared
    suffices hbelow : ((if skips depth n then [] else
        n.children.flatMap (preorder skips (depth + 1))).map Prod.snd).filter wanted =
        n.descendants.filter wanted by rw [hbelow]
    split
    · next hskips =>
      refine (List.filter_eq_nil_iff.2 fun b hb => ?_).symm
      rw [here depth hskips b hb]
      exact Bool.false_ne_true
    -- the node is opened in both, so the trees below it are compared one by one
    · rw [List.map_flatMap, List.filter_flatMap, Node.descendants, List.filter_flatMap]
      exact List.flatMap_congr fun child hchild => ih child hchild (depth + 1)

end Node

/-- **A complete walk.** Where a visitor never stops and none of the nodes that it looks for lies
below one that it skips, a ceiling that covers the tree lets it find all of them, in pre-order. -/
theorem Visitor.depthFirst_eq_foldl_filter {σ : Type} {v : Visitor σ} {wanted : Node → Bool}
    {f : σ → Node → σ} (henter : ∀ depth n s, v.enter depth n s = if wanted n then f s n else s)
    (hstops : ∀ s, v.stops s = false) {root : Node}
    (hskips : root.Every fun n => ∀ depth, v.skips depth n = true →
      ∀ m ∈ n.descendants, wanted m = false)
    {ceiling : Nat} (hall : root.size ≤ ceiling) (s : σ) :
    (v.depthFirst root ceiling s).2 = (root.nodes.filter wanted).foldl f s := by
  have hlength : (Node.preorder v.skips 0 root).length ≤ ceiling :=
    Nat.le_trans (Node.length_preorder_le v.skips 0 root) hall
  rw [depthFirst_eq_foldl hstops, List.take_of_length_le hlength, ← Node.filter_preorder hskips 0,
    List.foldl_filter, List.foldl_map]
  simp only [henter]

end CodeAssist.Tree
