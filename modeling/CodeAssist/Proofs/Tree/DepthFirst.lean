import CodeAssist.Proofs.Tree.Places
import Mathlib.Order.Bounds.Basic

/-!
# Depth-first walks

A walk is judged by an order of nodes that is given beforehand. It enters a first part of the order
and ends as soon as it may: at the ceiling, at the end of the order, or where the visitor asks for
it (`Visitor.Traverses`). The order of a depth-first walk is the pre-order of the tree without the
places below a skipped node (`Visitor.itinerary`).

The walk keeps a list of what is still to be entered. It can also be done without one, by a cursor
that only knows how to move to a first child, a next sibling and a parent, and that climbs from the
end of a row of siblings until there is a later one (`Visitor.tour`). What lies behind the cursor
is the walk's list (`Cursor.pending`), so both are the same walk.

Main statement: `Visitor.depthFirst_traverses`.
-/

namespace CodeAssist.Tree

/-! ### Going along an order -/

namespace Visitor

variable {σ : Type} (v : Visitor σ)

/-- The state after the visitor was shown those of some nodes that it wants to see. -/
def shown (entries : List (Nat × Node)) (s : σ) : σ :=
  (entries.filter fun entry => v.wants entry.2).foldl (fun s entry => v.visit entry.1 entry.2 s) s

/-- Whether a walk may end when it has entered the first `k` nodes of an order. The state is that
behind these nodes, which is also the state before the next one. -/
def Ends (ceiling : Nat) (order : List (Nat × Node)) (s : σ) (k : Nat) : Prop :=
  k = ceiling ∨ k = order.length ∨ v.stops (v.shown (order.take k) s) = true

/-- **Going along an order.** A first part of the order is entered, which ends as soon as it may,
and the visitor is shown the nodes of this part that it wants to see. -/
structure Traverses (ceiling : Nat) (order : List (Nat × Node)) (s : σ)
    (entered : List (Nat × Node)) (last : σ) : Prop where
  isPrefix : entered <+: order
  isLeast : IsLeast {k | v.Ends ceiling order s k} entered.length
  last_eq : last = v.shown entered s

theorem shown_cons (entry : Nat × Node) (entries : List (Nat × Node)) (s : σ) :
    v.shown (entry :: entries) s = v.shown entries (v.enter entry.1 entry.2 s) := by
  rw [shown, List.filter_cons, enter]
  split
  · rw [List.foldl_cons, shown]
  · rfl

/-- Entering some nodes shows those among them that are wanted. -/
theorem foldl_enter (entries : List (Nat × Node)) (s : σ) :
    entries.foldl (fun s entry => v.enter entry.1 entry.2 s) s = v.shown entries s := by
  induction entries generalizing s with
  | nil => rfl
  | cons entry entries ih => rw [List.foldl_cons, ih, shown_cons]

variable {v} {ceiling : Nat} {order : List (Nat × Node)} {s last : σ} {entry : Nat × Node}

theorem ends_succ {k : Nat} :
    v.Ends (ceiling + 1) (entry :: order) s (k + 1) ↔
      v.Ends ceiling order (v.enter entry.1 entry.2 s) k := by
  simp [Ends, shown_cons]

/-- A walk that may end at once does. -/
theorem Traverses.nil (h : v.Ends ceiling order s 0) : v.Traverses ceiling order s [] s where
  isPrefix := List.nil_prefix
  isLeast := ⟨h, fun _ _ => Nat.zero_le _⟩
  last_eq := rfl

/-- A walk that may not end at once enters a node and goes on from there. -/
theorem Traverses.cons {entered : List (Nat × Node)} (hgoes : v.stops s = false)
    (h : v.Traverses ceiling order (v.enter entry.1 entry.2 s) entered last) :
    v.Traverses (ceiling + 1) (entry :: order) s (entry :: entered) last where
  isPrefix := List.cons_prefix_cons.2 ⟨rfl, h.isPrefix⟩
  isLeast := by
    refine ⟨ends_succ.2 h.isLeast.1, fun k hk => ?_⟩
    cases k with
    | zero =>
      -- no ceiling, no end of the order, and the visitor goes on
      obtain hceiling | hend | hstops := hk
      · cases hceiling
      · cases hend
      · exact absurd hstops (Bool.eq_false_iff.1 hgoes)
    | succ k => exact Nat.succ_le_succ (h.isLeast.2 (ends_succ.1 hk))
  last_eq := by rw [h.last_eq, shown_cons]

/-- **A run goes along its order**, and counts the nodes that it enters. -/
theorem exists_traverses_run (v : Visitor σ) (ceiling : Nat) (order : List (Nat × Node)) (s : σ) :
    ∃ entered, v.Traverses ceiling order s entered (v.run ceiling order s).2 ∧
      (v.run ceiling order s).1 = entered.length := by
  -- a visit uses up one of the ceiling and one entry of the order
  induction ceiling generalizing order s with
  | zero => exact ⟨[], .nil (.inl rfl), rfl⟩
  | succ ceiling ih =>
    cases order with
    | nil => exact ⟨[], .nil (.inr (.inl rfl)), rfl⟩
    | cons entry order =>
      simp only [run]
      split
      · next hbefore => exact ⟨[], .nil (.inr (.inr hbefore)), rfl⟩
      · next hbefore =>
        have hgoes : v.stops s = false := Bool.eq_false_iff.2 hbefore
        split
        · next hafter => exact ⟨[entry], .cons hgoes (.nil (.inr (.inr hafter))), rfl⟩
        · obtain ⟨entered, htraverses, hcount⟩ := ih order (v.enter entry.1 entry.2 s)
          exact ⟨entry :: entered, htraverses.cons hgoes, congrArg (· + 1) hcount⟩

/-- The order of a depth-first walk: all nodes in pre-order, but for those below a skipped one. -/
def itinerary (v : Visitor σ) (root : Node) : List (Nat × Node) :=
  (root.places.filter fun place => !Node.anySkipped v.skips place.above).map Place.entry

theorem itinerary_eq (v : Visitor σ) (root : Node) :
    v.itinerary root = Node.preorder v.skips 0 root :=
  (Node.preorder_eq_places v.skips root).symm

/-- A visitor that does not look at depths is shown nodes. -/
theorem shown_eq_foldl {f : σ → Node → σ} (hvisit : ∀ depth n s, v.visit depth n s = f s n)
    (entries : List (Nat × Node)) (s : σ) :
    v.shown entries s = ((entries.map Prod.snd).filter v.wants).foldl f s := by
  rw [shown, List.filter_map, List.foldl_map]
  simp only [hvisit]
  rfl

/-- **A complete walk.** Under a ceiling that covers the tree, a visitor that never stops is shown
all of its order. -/
theorem depthFirst_of_size_le (hstops : ∀ s, v.stops s = false) {root : Node}
    (hall : root.size ≤ ceiling) (s : σ) :
    (v.depthFirst root ceiling s).2 = v.shown (v.itinerary root) s := by
  have hlength : (Node.preorder v.skips 0 root).length ≤ ceiling :=
    Nat.le_trans (Node.length_preorder_le v.skips 0 root) hall
  rw [depthFirst_eq_foldl hstops, List.take_of_length_le hlength, foldl_enter, itinerary_eq]

end Visitor

/-! ### Cursors -/

/-- A node that a walk stands on, with its later siblings, and the nodes above it from the parent
up, each with its later siblings. -/
structure Cursor where
  node : Node
  later : List Node
  above : List (Node × List Node)

namespace Cursor

/-- The cursor on a root. -/
def top (root : Node) : Cursor := ⟨root, [], []⟩

/-- Number of nodes above. -/
def depth (c : Cursor) : Nat := c.above.length

/-- Down to the first child. -/
def firstChild? (c : Cursor) : Option Cursor :=
  match c.node.children with
  | [] => none
  | n :: later => some ⟨n, later, (c.node, c.later) :: c.above⟩

/-- On to the next sibling. -/
def nextSibling? (c : Cursor) : Option Cursor :=
  match c.later with
  | [] => none
  | n :: later => some ⟨n, later, c.above⟩

/-- Up to the parent. -/
def parent? (c : Cursor) : Option Cursor :=
  match c.above with
  | [] => none
  | (n, later) :: above => some ⟨n, later, above⟩

theorem parent?_eq_some_iff {c up : Cursor} :
    c.parent? = some up ↔ c.above = (up.node, up.later) :: up.above := by
  unfold parent?
  split
  · next hroot => simp [hroot]
  · next n later above habove =>
    rw [habove, Option.some.injEq, List.cons.injEq, Prod.mk.injEq, and_assoc]
    obtain ⟨node, later', above'⟩ := up
    exact Iff.of_eq (Cursor.mk.injEq ..)

/-- Up until there is a next sibling, and on to that. -/
def climb? (c : Cursor) : Option Cursor :=
  match c.nextSibling? with
  | some next => some next
  | none =>
    match _h : c.parent? with
    | some up => up.climb?
    | none => none
termination_by c.above.length
decreasing_by
  rw [parent?_eq_some_iff.1 _h]
  exact Nat.lt_succ_self _

/-! ### What lies behind a cursor -/

/-- The later siblings of some nodes, each of which lies below the next, with their depths. -/
def laterOf : List (Node × List Node) → List (Nat × Node)
  | [] => []
  | (_, later) :: above => later.map (above.length, ·) ++ laterOf above

/-- What a walk from a cursor still has to enter apart from the tree that it stands on. -/
def behind (c : Cursor) : List (Nat × Node) :=
  laterOf ((c.node, c.later) :: c.above)

/-- What a walk from a cursor still has to enter. -/
def pending (c : Cursor) : List (Nat × Node) :=
  (c.depth, c.node) :: c.behind

/-- **Climbing** leads to the first of what lies behind. -/
theorem behind_eq (c : Cursor) : c.behind = c.climb?.elim [] pending := by
  fun_induction climb? c with
  -- the next sibling is taken where there is one
  | case1 c next hnext =>
    obtain ⟨node, later, above⟩ := c
    cases later with
    | nil => cases hnext
    | cons n later =>
      cases hnext
      rfl
  | case2 c hnone up hup ih =>
    obtain ⟨node, later, above⟩ := c
    cases later with
    | nil =>
      -- the siblings are done, so what lies behind the parent is next
      calc laterOf ((node, []) :: above)
          = laterOf above := rfl
        _ = up.behind := congrArg laterOf (parent?_eq_some_iff.1 hup)
        _ = up.climb?.elim [] pending := ih
    | cons n later => cases hnone
  | case3 c hnone hroot =>
    -- the root has nothing behind it
    obtain ⟨node, later, above⟩ := c
    cases later with
    | nil =>
      cases above with
      | nil => rfl
      | cons => cases hroot
    | cons n later => cases hnone

end Cursor

namespace Visitor

variable {σ : Type} (v : Visitor σ)

/-- Where a walk goes on behind a node that was entered: into the node, or else by climbing. -/
def next? (c : Cursor) : Option Cursor :=
  (if v.skips c.depth c.node then none else c.firstChild?).or c.climb?

/-- Enters at most `ceiling` nodes, from a cursor on, and counts them. -/
def tour : (ceiling : Nat) → Cursor → σ → Nat × σ
  | 0, _, s => (0, s)
  | ceiling + 1, c, s =>
    if v.stops s then (0, s) else
    let s := v.enter c.depth c.node s
    if v.stops s then (1, s) else
    match v.next? c with
    | none => (1, s)
    | some next =>
      let (entered, s) := tour ceiling next s
      (entered + 1, s)

/-- The walk goes on where the rest of its list begins. -/
theorem below_append_behind (c : Cursor) :
    v.below c.depth c.node ++ c.behind = (v.next? c).elim [] Cursor.pending := by
  rw [next?, below]
  split
  · exact c.behind_eq
  · cases hchildren : c.node.children with
    | nil => simpa [Cursor.firstChild?, hchildren] using c.behind_eq
    | cons n later => simp [Cursor.firstChild?, hchildren, Cursor.pending, Cursor.behind,
        Cursor.laterOf, Cursor.depth]

/-- **A tour is a walk** through what lies behind its cursor. -/
theorem tour_eq_walk (ceiling : Nat) (c : Cursor) (s : σ) :
    v.tour ceiling c s = v.walk ceiling c.pending s := by
  -- the cursor stands at the first of the pending nodes, and the rest lie behind it
  induction ceiling generalizing c s with
  | zero => rfl
  | succ ceiling ih =>
    simp only [tour, Cursor.pending, walk, below_append_behind]
    cases v.next? c with
    | some next => simp only [ih, Option.elim]
    | none =>
      -- nothing is left to be entered
      have hdone : ∀ s, v.walk ceiling [] s = (0, s) := fun s => by cases ceiling <;> rfl
      simp only [Option.elim, hdone]

/-! ### Depth-first walks -/

/-- **A depth-first walk** goes along the pre-order of its tree, from which the places below a
skipped node are struck out. It counts the nodes that it enters, and a cursor that moves from node
to node makes the same walk. -/
theorem depthFirst_traverses (root : Node) (ceiling : Nat) (s : σ) :
    ∃ entered,
      v.Traverses ceiling (v.itinerary root) s entered (v.depthFirst root ceiling s).2 ∧
      (v.depthFirst root ceiling s).1 = entered.length ∧
      v.tour ceiling (.top root) s = v.depthFirst root ceiling s := by
  have hwalk : v.depthFirst root ceiling s = v.run ceiling (v.itinerary root) s := by
    rw [depthFirst, walk_eq_run, order, List.flatMap_singleton, itinerary_eq]
  obtain ⟨entered, htraverses, hcount⟩ := exists_traverses_run v ceiling (v.itinerary root) s
  rw [← hwalk] at htraverses hcount
  exact ⟨entered, htraverses, hcount, v.tour_eq_walk ceiling (.top root) s⟩

end Visitor

end CodeAssist.Tree
