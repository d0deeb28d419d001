import CodeAssist.Tree.Walk

/-!
# Reasoning about walks

A walk enters nodes one after the other, so what it does to the visitor's state is known from what
showing a single node does. `Visitor.walk_preserves` lifts an invariant of one visitor,
`Visitor.walk_grows` an order in which its state moves up, from one ceiling to a higher one, and
`Visitor.Simulates.walk` a relation between the states of two visitors that go the same way.

The last one may use what is known of the nodes: a fact that holds of a node and of all nodes
below it (`Node.Every`) holds of every node that a walk from there enters.
-/

namespace CodeAssist.Tree

/-! ### Facts about all nodes of a tree -/

/-- A fact about a node and all nodes below it. -/
inductive Node.Every (P : Node → Prop) : Node → Prop where
  | intro {n : Node} (here : P n) (below : ∀ child ∈ n.children, Every P child) : Every P n

/-- What is known of all nodes is known of the first. -/
theorem Node.Every.here {P : Node → Prop} {n : Node} : n.Every P → P n
  | intro here _ => here

/-- What is known of all nodes is known below each child. -/
theorem Node.Every.of_mem_children {P : Node → Prop} {n : Node} :
    n.Every P → ∀ child ∈ n.children, child.Every P
  | intro _ below => below

namespace Visitor

variable {σ τ : Type} {v : Visitor σ} {w : Visitor τ}

/-! ### Invariants -/

section Invariant

variable {P : σ → Prop}

/-- Entering a node keeps what showing it keeps. -/
theorem enter_preserves (hvisit : ∀ depth n s, P s → P (v.visit depth n s)) {depth : Nat}
    {n : Node} {s : σ} (h : P s) : P (v.enter depth n s) := by
  unfold enter
  split
  · exact hvisit depth n s h
  · exact h

/-- **A walk keeps** what showing a node keeps. -/
theorem walk_preserves (hvisit : ∀ depth n s, P s → P (v.visit depth n s)) {ceiling : Nat}
    {pending : List (Nat × Node)} {s : σ} (h : P s) : P (v.walk ceiling pending s).2 := by
  fun_induction v.walk ceiling pending s with
  | case1 => exact h
  | case2 => exact h
  | case3 => exact h
  | case4 => exact enter_preserves hvisit h
  | case5 ceiling depth n rest s hgoes entered hstops entered' last hwalk ih =>
    rw [hwalk] at ih
    exact ih (enter_preserves hvisit h)

end Invariant

/-! ### Growth -/

section Growth

variable {R : σ → σ → Prop} (hrefl : ∀ s, R s s) (htrans : ∀ {s t u}, R s t → R t u → R s u)
include hrefl htrans

/-- **A higher ceiling only adds.** Where showing a node moves the state up in an order, a walk
under a higher ceiling ends further up, wherever the visitor skips or stops: both walks go the same
way until the lower ceiling is reached, and from there the other one moves up or stays. -/
theorem walk_grows (hvisit : ∀ depth n s, R s (v.visit depth n s)) {ceiling higher : Nat}
    (h : ceiling ≤ higher) (pending : List (Nat × Node)) (s : σ) :
    R (v.walk ceiling pending s).2 (v.walk higher pending s).2 := by
  induction ceiling generalizing higher pending s with
  -- the lower ceiling stops at once, and the walk goes on from a state above the first one
  | zero => exact walk_preserves (fun depth n t hst => htrans hst (hvisit depth n t)) (hrefl s)
  | succ ceiling ih =>
    obtain ⟨higher, rfl⟩ := Nat.exists_eq_add_one.2 (Nat.lt_of_lt_of_le (Nat.succ_pos ceiling) h)
    cases pending with
    | nil => exact hrefl s
    | cons entry rest =>
      obtain ⟨depth, n⟩ := entry
      simp only [walk]
      -- both walks stop at this node or go on from the same state
      split
      · exact hrefl s
      · split
        · exact hrefl _
        · exact ih (Nat.le_of_succ_le_succ h) _ _

/-- From one root, too. -/
theorem depthFirst_grows (hvisit : ∀ depth n s, R s (v.visit depth n s)) {ceiling higher : Nat}
    (h : ceiling ≤ higher) (root : Node) (s : σ) :
    R (v.depthFirst root ceiling s).2 (v.depthFirst root higher s).2 :=
  walk_grows hrefl htrans hvisit h _ s

end Growth

/-! ### Simulations -/

/-- Two visitors that go the same way and keep their states related. -/
structure Simulates (v : Visitor σ) (w : Visitor τ) (P : Node → Prop) (R : σ → τ → Prop) :
    Prop where
  kinds : v.kinds = w.kinds
  skips : v.skips = w.skips
  stops : ∀ s t, R s t → v.stops s = w.stops t
  visit : ∀ depth n s t, P n → R s t → R (v.visit depth n s) (w.visit depth n t)

namespace Simulates

variable {P : Node → Prop} {R : σ → τ → Prop}

/-- Entering a node keeps the states related. -/
theorem enter (h : Simulates v w P R) {depth : Nat} {n : Node} {s : σ} {t : τ} (hn : P n)
    (hst : R s t) : R (v.enter depth n s) (w.enter depth n t) := by
  have hwants : v.wants n = w.wants n := by rw [wants, wants, h.kinds]
  unfold Visitor.enter
  rw [hwants]
  split
  · exact h.visit depth n s t hn hst
  · exact hst

/-- What is entered next is the same. -/
theorem below_eq (h : Simulates v w P R) (depth : Nat) (n : Node) :
    v.below depth n = w.below depth n := by
  rw [below, below, h.skips]

/-- What lies below a node of which all is known is known, too. -/
theorem every_of_mem_below {depth : Nat} {n : Node} (hn : n.Every P) {entry : Nat × Node}
    (hentry : entry ∈ v.below depth n) : entry.2.Every P := by
  unfold below at hentry
  split at hentry
  · cases hentry
  · obtain ⟨child, hchild, rfl⟩ := List.mem_map.1 hentry
    exact hn.of_mem_children child hchild

/-- **Walks keep the states related**, and enter the same number of nodes. -/
theorem walk (h : Simulates v w P R) {ceiling : Nat} {pending : List (Nat × Node)} {s : σ} {t : τ}
    (hpending : ∀ entry ∈ pending, entry.2.Every P) (hst : R s t) :
    (v.walk ceiling pending s).1 = (w.walk ceiling pending t).1 ∧
      R (v.walk ceiling pending s).2 (w.walk ceiling pending t).2 := by
  induction ceiling generalizing pending s t with
  | zero => exact ⟨rfl, hst⟩
  | succ ceiling ih =>
    cases pending with
    | nil => exact ⟨rfl, hst⟩
    | cons entry rest =>
      obtain ⟨depth, n⟩ := entry
      have hn : n.Every P := hpending (depth, n) List.mem_cons_self
      have henter : R (v.enter depth n s) (w.enter depth n t) := h.enter hn.here hst
      -- what is left to enter is known, too
      have hrest : ∀ entry ∈ v.below depth n ++ rest, entry.2.Every P := by
        intro entry hentry
        rcases List.mem_append.1 hentry with hbelow | hrest
        · exact every_of_mem_below hn hbelow
        · exact hpending entry (List.mem_cons_of_mem _ hrest)
      obtain ⟨hcount, hstate⟩ := ih hrest henter
      rw [h.below_eq] at hcount hstate
      -- the visitors stop together and enter the same nodes, so the walks go on side by side
      simp only [Visitor.walk, h.stops s t hst, h.stops _ _ henter, h.below_eq]
      split
      · exact ⟨rfl, hst⟩
      · split
        · exact ⟨rfl, henter⟩
        · exact ⟨congrArg (· + 1) hcount, hstate⟩

end Simulates

end Visitor

end CodeAssist.Tree
