import CodeAssist.Analysis.Context
import CodeAssist.Proofs.Analysis.Nesting
import Mathlib.Data.List.MinMax

/-!
# Which node is the anchor

Some nodes qualify for the anchor of a point: the named ones on its row that are of a kind which the
language ranks (`Qualifies`). They may hold one another and stand side by side. The walk keeps one
of them, and gives it up for a node of a better rank only, so in the end it has kept the first one
in pre-order of those with the best rank (`RanksFirst`).

The walk looks below the nodes on the row only. In a nested tree this hides nothing, because a node
meets all rows that the nodes below it meet.

Main statement: `anchor_ranksFirst`.
-/

namespace CodeAssist.Analysis

open CodeAssist.Tree
open CodeAssist.Text (Point)

variable {tree : SyntaxTree} {p : Point} {ceiling : Nat}

/-- The kinds of the nodes that a suffix may be cut to, most relevant first. -/
def rankedKinds (tree : SyntaxTree) : List String := (kindTable tree.language).context

/-- How far behind a node's kind stands among the ranked kinds. -/
def rank (tree : SyntaxTree) (n : Node) : Nat := (rankedKinds tree).idxOf n.kind

/-- A named node of a ranked kind that lies on the row of a point. -/
structure Qualifies (tree : SyntaxTree) (p : Point) (n : Node) : Prop where
  named : n.named = true
  kind : n.kind ∈ rankedKinds tree
  starts : (tree.startPoint n).row ≤ p.row
  stops : p.row ≤ (tree.stopPoint n).row

theorem qualifies_iff {n : Node} :
    Qualifies tree p n ↔
      (n.named && tree.meetsRow n p.row) = true ∧ n.kind ∈ rankedKinds tree := by
  rw [Bool.and_eq_true, tree.meetsRow_iff]
  constructor
  · rintro ⟨named, kind, starts, stops⟩
    exact ⟨⟨named, starts, stops⟩, kind⟩
  · rintro ⟨⟨named, starts, stops⟩, kind⟩
    exact ⟨named, kind, starts, stops⟩

instance (tree : SyntaxTree) (p : Point) : DecidablePred (Qualifies tree p) := fun _ =>
  decidable_of_iff _ qualifies_iff.symm

/-- The nodes that qualify, in pre-order. -/
def qualified (tree : SyntaxTree) (p : Point) : List Node :=
  tree.root.nodes.filter fun n => Qualifies tree p n

/-- Of some nodes, those before `n` rank worse than it does, and those behind it no better. -/
def RanksFirst (tree : SyntaxTree) (n : Node) (ns : List Node) : Prop :=
  ∃ earlier later, ns = earlier ++ n :: later ∧
    (∀ m ∈ earlier, rank tree n < rank tree m) ∧ ∀ m ∈ later, rank tree n ≤ rank tree m

/-- The least element that is found is the first one. -/
theorem ranksFirst_of_mem_argmin {n : Node} {ns : List Node} (h : n ∈ ns.argmin (rank tree)) :
    RanksFirst tree n ns := by
  induction ns generalizing n with
  | nil => cases h
  | cons m ns ih =>
    rw [List.argmin_cons] at h
    -- the rest's best one stands against its first node, which wins where the ranks are equal
    cases hrest : ns.argmin (rank tree) with
    | none =>
      obtain rfl := List.argmin_eq_none.1 hrest
      obtain rfl := Option.some.inj h
      exact ⟨[], [], rfl, by simp, by simp⟩
    | some best =>
      rw [hrest] at h
      by_cases hlt : rank tree best < rank tree m
      · -- the best one of the rest is better than the node before it
        obtain rfl : best = n := by simpa [hlt] using h
        obtain ⟨earlier, later, hns, hearlier, hlater⟩ := ih hrest
        exact ⟨m :: earlier, later, by rw [hns, List.cons_append],
          List.forall_mem_cons.2 ⟨hlt, hearlier⟩, hlater⟩
      -- the first node is no worse than any node behind it
      · obtain rfl : m = n := by simpa [hlt] using h
        exact ⟨[], ns, rfl, by simp, fun k hk =>
          le_trans (not_lt.1 hlt) (List.le_of_mem_argmin hk hrest)⟩

/-! ### The walk -/

/-- What the walk keeps of a node. -/
def keptOf (tree : SyntaxTree) (n : Node) : Nat × Excerpt := (rank tree n, tree.excerpt n)

/-- Keeps a node in place of one that ranks worse. -/
def keepBetter (tree : SyntaxTree) (best : Option (Nat × Excerpt)) (n : Node) :
    Option (Nat × Excerpt) :=
  match best with
  | none => some (keptOf tree n)
  | some kept => if rank tree n < kept.1 then some (keptOf tree n) else some kept

/-- **What is kept** of some nodes is the first one of the best rank. -/
theorem foldl_keepBetter (ns : List Node) :
    ns.foldl (keepBetter tree) none = (ns.argmin (rank tree)).map (keptOf tree) := by
  induction ns using List.reverseRecOn with
  | nil => rfl
  | append_singleton ns n ih =>
    rw [List.foldl_append, List.foldl_cons, List.foldl_nil, ih, List.argmin_concat]
    cases ns.argmin (rank tree) with
    | none => rfl
    | some best =>
      simp only [Option.map_some, keepBetter, keptOf]
      split <;> rfl

/-- The search for the anchor, which may leave out other subtrees than those off the row. -/
def anchorSearch (tree : SyntaxTree) (p : Point) (skips : Nat → Node → Bool) :
    Visitor (Option (Nat × Excerpt)) :=
  { contextVisitor tree p.row (rankedKinds tree) with skips := skips }

/-- A kind that is ranked has its rank, and any other kind none. -/
theorem findIdx?_rankedKinds (n : Node) :
    (rankedKinds tree).findIdx? (· = n.kind) =
      if n.kind ∈ rankedKinds tree then some (rank tree n) else none := by
  split
  · next hkind =>
    exact List.findIdx?_eq_some_of_exists ⟨n.kind, hkind, decide_eq_true rfl⟩
  · next hother =>
    refine List.findIdx?_eq_none_iff.2 fun kind hkind => decide_eq_false fun heq => hother ?_
    rwa [← heq]

/-- **A node that qualifies** is kept where it ranks better, and any other node changes nothing. -/
theorem anchorSearch_enter (skips : Nat → Node → Bool) (depth : Nat) (n : Node)
    (best : Option (Nat × Excerpt)) :
    (anchorSearch tree p skips).enter depth n best =
      if decide (Qualifies tree p n) then keepBetter tree best n else best := by
  change (contextVisitor tree p.row (rankedKinds tree)).visit depth n best = _
  simp only [contextVisitor, findIdx?_rankedKinds, decide_eq_true_iff, qualifies_iff]
  -- a node qualifies by its row and then by its kind, as it is looked at
  by_cases hrow : (n.named && tree.meetsRow n p.row) = true
  · by_cases hkind : n.kind ∈ rankedKinds tree
    · rw [if_pos hrow, if_pos hkind, if_pos ⟨hrow, hkind⟩]
      cases best <;> rfl
    · rw [if_pos hrow, if_neg hkind, if_neg fun h => hkind h.2]
  · rw [if_neg hrow, if_neg fun h => hrow h.1]

/-- **A complete search** that leaves out nothing that qualifies keeps the first node of the best
rank. -/
theorem depthFirst_anchorSearch {skips : Nat → Node → Bool}
    (hskips : tree.root.Every fun n => ∀ depth, skips depth n = true →
      ∀ m ∈ n.descendants, decide (Qualifies tree p m) = false)
    (hall : tree.root.size ≤ ceiling) :
    ((anchorSearch tree p skips).depthFirst tree.root ceiling none).2 =
      ((qualified tree p).argmin (rank tree)).map (keptOf tree) := by
  rw [← foldl_keepBetter]
  exact Visitor.depthFirst_eq_foldl_filter (anchorSearch_enter skips) (fun _ => rfl) hskips hall
    none

/-- Nothing that qualifies lies below a node off the row. -/
theorem qualifies_eq_false_of_skipped (h : tree.root.Nested) :
    tree.root.Every fun n => ∀ depth, (contextVisitor tree p.row (rankedKinds tree)).skips depth n =
      true → ∀ m ∈ n.descendants, decide (Qualifies tree p m) = false := by
  refine h.every.imp fun n hn depth hoff m hm => decide_eq_false fun hqualifies => ?_
  -- the node would meet the row together with the one below it
  have hrow : tree.meetsRow n p.row = true :=
    tree.meetsRow_of_mem_nodes hn (Node.mem_nodes_of_mem_descendants hm)
      (tree.meetsRow_iff.2 ⟨hqualifies.starts, hqualifies.stops⟩)
  simp [contextVisitor, hrow] at hoff

/-- The anchor is the first node of the best rank among those that qualify. -/
theorem contextAnchor?_eq (h : tree.root.Nested) (hall : tree.root.size ≤ ceiling) :
    contextAnchor? tree p ceiling =
      ((qualified tree p).argmin (rank tree)).map tree.excerpt := by
  have hkept :
      ((contextVisitor tree p.row (rankedKinds tree)).depthFirst tree.root ceiling none).2 =
        ((qualified tree p).argmin (rank tree)).map (keptOf tree) :=
    depthFirst_anchorSearch (qualifies_eq_false_of_skipped h) hall
  rw [rankedKinds] at hkept
  rw [contextAnchor?, hkept, Option.map_map]
  rfl

/-- The rest of an anchor is the part of its text behind the point, as it is seen from its start. -/
theorem restOfAnchor?_of_some {n : Node}
    (h : contextAnchor? tree p ceiling = some (tree.excerpt n)) :
    restOfAnchor? tree p ceiling =
      (Text.splitAtPoint? (tree.textOf n).toList ((tree.startPoint n).relativeTo p)).map
        fun parts => String.ofList parts.2 := by
  rw [restOfAnchor?, h, Option.map_eq_bind]
  rfl

/-- **Which node is the anchor.** In a nested tree that the ceiling covers, the anchor of a point is
the first one in pre-order of the nodes with the best rank among all that qualify, and the rest is
taken from this node. Where none qualifies, there is no anchor and no rest. A search that leaves out
no subtree has the same answer. -/
theorem anchor_ranksFirst (h : tree.root.Nested) (p : Point) (hall : tree.root.size ≤ ceiling) :
    (qualified tree p = [] ∧ contextAnchor? tree p ceiling = none ∧
          restOfAnchor? tree p ceiling = none ∨
        ∃ n, RanksFirst tree n (qualified tree p) ∧
          contextAnchor? tree p ceiling = some (tree.excerpt n) ∧
          restOfAnchor? tree p ceiling =
            (Text.splitAtPoint? (tree.textOf n).toList ((tree.startPoint n).relativeTo p)).map
              fun parts => String.ofList parts.2) ∧
      contextAnchor? tree p ceiling =
        ((anchorSearch tree p fun _ _ => false).depthFirst tree.root ceiling none).2.map
          Prod.snd := by
  have hanchor := contextAnchor?_eq (p := p) h hall
  constructor
  · cases hbest : (qualified tree p).argmin (rank tree) with
    | none =>
      rw [hbest, Option.map_none] at hanchor
      -- nothing was kept, so there is nothing to split
      exact .inl ⟨List.argmin_eq_none.1 hbest, hanchor, by rw [restOfAnchor?, hanchor]; rfl⟩
    | some n =>
      rw [hbest, Option.map_some] at hanchor
      exact .inr ⟨n, ranksFirst_of_mem_argmin hbest, hanchor, restOfAnchor?_of_some hanchor⟩
  · -- where nothing is left out, nothing that qualifies is
    have hunpruned : ((anchorSearch tree p fun _ _ => false).depthFirst tree.root ceiling none).2 =
        ((qualified tree p).argmin (rank tree)).map (keptOf tree) :=
      depthFirst_anchorSearch (h.imp fun _ _ _ hskips => absurd hskips Bool.false_ne_true) hall
    rw [hanchor, hunpruned, Option.map_map]
    rfl

/-- A function with two implementations on its row, and another one on the row below. -/
def implsInFunction : SyntaxTree where
  source := "fn f() \x7b impl A \x7b\x7d impl B \x7b\x7d \x7d\nimpl C \x7b\x7d"
  language := .rust
  root := .mk ⟨"source_file", true, false, false, 0, 40⟩
    [.mk ⟨"function_item", true, false, false, 0, 30⟩
        [.mk ⟨"block", true, false, true, 7, 30⟩
          [.mk ⟨"impl_item", true, false, false, 9, 18⟩ [],
            .mk ⟨"impl_item", true, false, false, 19, 28⟩ []]],
      .mk ⟨"impl_item", true, false, false, 31, 40⟩ []]

/-- On the first row three nodes qualify. The function is met first but ranks worse, and of the two
implementations, which rank alike, the first one is the anchor. -/
theorem anchor_ranksFirst_implsInFunction :
    implsInFunction.root.Nested ∧ implsInFunction.root.size ≤ 6 ∧
      (qualified implsInFunction ⟨0, 14⟩).map implsInFunction.textOf =
        ["fn f() \x7b impl A \x7b\x7d impl B \x7b\x7d \x7d", "impl A \x7b\x7d",
          "impl B \x7b\x7d"] ∧
      restOfAnchor? implsInFunction ⟨0, 14⟩ 6 = some "A \x7b\x7d" ∧
      ∃ n, RanksFirst implsInFunction n (qualified implsInFunction ⟨0, 14⟩) ∧
        contextAnchor? implsInFunction ⟨0, 14⟩ 6 = some (implsInFunction.excerpt n) := by
  have hnested : implsInFunction.root.Nested := by decide +kernel
  have hsize : implsInFunction.root.size ≤ 6 := by decide +kernel
  have hqualified : (qualified implsInFunction ⟨0, 14⟩).map implsInFunction.textOf =
      ["fn f() \x7b impl A \x7b\x7d impl B \x7b\x7d \x7d", "impl A \x7b\x7d",
        "impl B \x7b\x7d"] := by decide +kernel
  refine ⟨hnested, hsize, hqualified, by decide +kernel, ?_⟩
  -- three nodes qualify, so one of them is kept
  rcases (anchor_ranksFirst hnested ⟨0, 14⟩ hsize).1 with ⟨hnone, -⟩ | ⟨n, hn, hanchor, -⟩
  · rw [hnone] at hqualified
    cases hqualified
  · exact ⟨n, hn, hanchor⟩

end CodeAssist.Analysis
