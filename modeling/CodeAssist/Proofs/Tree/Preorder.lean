import CodeAssist.Proofs.Tree.Walks
import CodeAssist.Tokens.Strategy

/-!
# Walks in pre-order

A depth-first walk keeps a list of what is still to be entered. What it enters can be said without
that list: the nodes of the tree in pre-order, where what lies below a skipped node is left out
(`Node.preorder`). A walk goes along this order from its start, as far as the ceiling and the
visitor let it (`Visitor.walk_eq_run`), and a visitor that never stops is shown a first part of it
(`Visitor.depthFirst_eq_foldl`).

So a ceiling is harmless where what stands behind it in the order would not change the state
(`Visitor.depthFirst_ceiling`). How long the order is depends on the nodes below which it goes on:
each of their children stands in it, skipped or not (`Node.length_preorder`).
-/

namespace CodeAssist.Tree

/-! ### Pre-order -/

namespace Node

variable (skips : Nat → Node → Bool)

mutual
/-- The nodes of a tree in pre-order, each with its depth. What lies below a skipped node is left
out. -/
def preorder (depth : Nat) : Node → List (Nat × Node)
  | mk label children =>
    (depth, mk label children) ::
      if skips depth (mk label children) then [] else preorders (depth + 1) children

/-- The nodes of a forest in pre-order, tree by tree. -/
def preorders (depth : Nat) : List Node → List (Nat × Node)
  | [] => []
  | n :: ns => preorder depth n ++ preorders depth ns
end

/-- A forest is gone through tree by tree. -/
theorem preorders_eq_flatMap (depth : Nat) (ns : List Node) :
    preorders skips depth ns = ns.flatMap (preorder skips depth) := by
  induction ns with
  | nil => rfl
  | cons n ns ih => rw [preorders, ih, List.flatMap_cons]

/-- A tree is gone through from its root on. -/
theorem preorder_eq (depth : Nat) (n : Node) :
    preorder skips depth n =
      (depth, n) :: if skips depth n then [] else
        n.children.flatMap (preorder skips (depth + 1)) := by
  cases n with
  | mk label children => rw [preorder, preorders_eq_flatMap, Node.children]

/-! ### The length of the order -/

mutual
/-- No node stands in the order twice. -/
theorem length_preorder_le (depth : Nat) : ∀ n, (preorder skips depth n).length ≤ n.size
  | mk label children => by
    have hbelow := length_preorders_le (depth + 1) children
    rw [preorder, size]
    split
    · simp
    · simpa using hbelow

theorem length_preorders_le (depth : Nat) :
    ∀ ns, (preorders skips depth ns).length ≤ sizes ns
  | [] => Nat.le_refl 0
  | n :: ns => by
    have hfirst := length_preorder_le depth n
    have hrest := length_preorders_le depth ns
    rw [preorders, sizes, List.length_append]
    omega
end

/-- The children of those nodes of an order below which it goes on. -/
def openedChildren (entries : List (Nat × Node)) : Nat :=
  Tokens.total ((entries.filter fun entry => !skips entry.1 entry.2).map fun entry =>
    entry.2.children.length)

theorem openedChildren_append (a b : List (Nat × Node)) :
    openedChildren skips (a ++ b) = openedChildren skips a + openedChildren skips b := by
  simp [openedChildren, Tokens.total_append]

mutual
/-- **Every child counts.** A node of the order other than the first stands in it as a child of a
node that is not skipped, whether or not it is skipped itself. -/
theorem length_preorder (depth : Nat) :
    ∀ n, (preorder skips depth n).length = 1 + openedChildren skips (preorder skips depth n)
  | mk label children => by
    have hbelow := length_preorders (depth + 1) children
    rw [preorder]
    split
    next hskips => simp [openedChildren, hskips]
    next hskips =>
      rw [List.length_cons, hbelow]
      simp [openedChildren, hskips, Node.children]
      omega

theorem length_preorders (depth : Nat) :
    ∀ ns, (preorders skips depth ns).length =
      ns.length + openedChildren skips (preorders skips depth ns)
  | [] => rfl
  | n :: ns => by
    have hfirst := length_preorder depth n
    have hrest := length_preorders depth ns
    rw [preorders, openedChildren_append, List.length_append, List.length_cons]
    omega
end

end Node

namespace Visitor

variable {σ : Type} (v : Visitor σ)

/-! ### Walks along the order -/

/-- The order in which a walk enters what is pending. -/
def order (pending : List (Nat × Node)) : List (Nat × Node) :=
  pending.flatMap fun entry => Node.preorder v.skips entry.1 entry.2

/-- The first pending node is entered, and then what lies below it comes before the others. -/
theorem order_cons (depth : Nat) (n : Node) (rest : List (Nat × Node)) :
    v.order ((depth, n) :: rest) = (depth, n) :: v.order (v.below depth n ++ rest) := by
  -- the children are opened in place of the node, unless it is skipped
  rw [order, order, List.flatMap_cons, Node.preorder_eq, List.flatMap_append, below]
  split
  · rfl
  · rw [List.flatMap_map]
    rfl

/-- Enters at most `ceiling` nodes of a list, until the visitor asks to end. -/
def run : (ceiling : Nat) → List (Nat × Node) → σ → Nat × σ
  | 0, _, s => (0, s)
  | _, [], s => (0, s)
  | ceiling + 1, (depth, n) :: rest, s =>
    if v.stops s then (0, s) else
    let s := v.enter depth n s
    if v.stops s then (1, s) else
    let (entered, s) := run ceiling rest s
    (entered + 1, s)

/-- **A walk goes along the order.** -/
theorem walk_eq_run (ceiling : Nat) (pending : List (Nat × Node)) (s : σ) :
    v.walk ceiling pending s = v.run ceiling (v.order pending) s := by
  induction ceiling generalizing pending s with
  | zero => rfl
  | succ ceiling ih =>
    -- the entered node is the first of the order, and the walk goes on with those below it
    cases pending with
    | nil => rfl
    | cons entry rest =>
      obtain ⟨depth, n⟩ := entry
      simp only [order_cons, walk, run, ih]

variable {v}

/-- A visitor that never stops is shown all entries up to the ceiling. -/
theorem run_of_never_stops (hstops : ∀ s, v.stops s = false) (ceiling : Nat)
    (entries : List (Nat × Node)) (s : σ) :
    v.run ceiling entries s = ((entries.take ceiling).length,
      (entries.take ceiling).foldl (fun s entry => v.enter entry.1 entry.2 s) s) := by
  induction ceiling generalizing entries s with
  | zero => rfl
  | succ ceiling ih =>
    cases entries with
    | nil => rfl
    | cons entry rest => simp [run, hstops, ih]

/-- **A visitor that never stops** is shown a first part of the tree's order. -/
theorem depthFirst_eq_foldl (hstops : ∀ s, v.stops s = false) (root : Node) (ceiling : Nat)
    (s : σ) :
    (v.depthFirst root ceiling s).2 = ((Node.preorder v.skips 0 root).take ceiling).foldl
      (fun s entry => v.enter entry.1 entry.2 s) s := by
  rw [depthFirst, walk_eq_run, run_of_never_stops hstops, order, List.flatMap_singleton]

/-- Entries that change nothing may be left out. -/
theorem foldl_enter_of_unchanged {entries : List (Nat × Node)}
    (h : ∀ entry ∈ entries, ∀ s, v.enter entry.1 entry.2 s = s) (s : σ) :
    entries.foldl (fun s entry => v.enter entry.1 entry.2 s) s = s := by
  induction entries with
  | nil => rfl
  | cons entry rest ih =>
    -- the first entry changes nothing, so the others start from the same state
    rw [List.foldl_cons, h entry List.mem_cons_self]
    exact ih fun other hother => h other (List.mem_cons_of_mem entry hother)

/-- **A harmless ceiling.** Where nothing behind the ceiling would change the state, the walk ends
in the same state as with a ceiling that covers the tree. -/
theorem depthFirst_ceiling (hstops : ∀ s, v.stops s = false) {root : Node} {ceiling all : Nat}
    (hall : root.size ≤ all)
    (hbehind : ∀ entry ∈ (Node.preorder v.skips 0 root).drop ceiling, ∀ s,
      v.enter entry.1 entry.2 s = s) (s : σ) :
    (v.depthFirst root ceiling s).2 = (v.depthFirst root all s).2 := by
  let entries := Node.preorder v.skips 0 root
  let enterAll (entries : List (Nat × Node)) (s : σ) : σ :=
    entries.foldl (fun s entry => v.enter entry.1 entry.2 s) s
  have hlength : entries.length ≤ all :=
    Nat.le_trans (Node.length_preorder_le v.skips 0 root) hall
  -- what stands behind the ceiling is entered too, to no effect, up to the end of the order
  calc (v.depthFirst root ceiling s).2
      = enterAll (entries.take ceiling) s := depthFirst_eq_foldl hstops root ceiling s
    _ = enterAll (entries.drop ceiling) (enterAll (entries.take ceiling) s) :=
        (foldl_enter_of_unchanged hbehind _).symm
    _ = enterAll (entries.take ceiling ++ entries.drop ceiling) s := List.foldl_append.symm
    _ = enterAll (entries.take all) s := by
        rw [List.take_append_drop, List.take_of_length_le hlength]
    _ = (v.depthFirst root all s).2 := (depthFirst_eq_foldl hstops root all s).symm

end Visitor

end CodeAssist.Tree
