import CodeAssist.Proofs.Tree.DepthFirst
import Mathlib.Data.List.Perm.Basic

/-!
# Breadth-first walks

A breadth-first walk keeps two queues. At every step the first one holds the rest of a level, and
the second one the children of the part that is done. So what is still to come is the first queue,
and then the levels from the one on that the second queue and the children of the first make up
(`walkLevels_eq`). Nothing else has to be known of the queues: from the root on, the walk is the
list of all levels down to the greatest depth (`breadthFirst_eq`).

A level is also what the tree's pre-order has at one depth, in the same order
(`Node.map_node_filter_depth`). This gives the main statement, `breadthFirst_by_depth`.
-/

namespace CodeAssist.Tree

open Node (nextLevel)

variable {σ : Type} {maxDepth : Int}

/-! ### The levels in a row -/

/-- Whether the nodes of a depth are reached: the greatest depth counts, and a negative one stands
for no limit. -/
def InReach (maxDepth : Int) (depth : Nat) : Prop := maxDepth < 0 ∨ depth ≤ maxDepth

instance (maxDepth : Int) (depth : Nat) : Decidable (InReach maxDepth depth) :=
  inferInstanceAs (Decidable (_ ∨ _))

/-- The nodes of a level and of those below it, each with its depth, as far as they are reached. -/
def levelsFrom (maxDepth : Int) (depth : Nat) (level : List Node) : List (Nat × Node) :=
  if level ≠ [] ∧ InReach maxDepth depth then
    level.map (depth, ·) ++ levelsFrom maxDepth (depth + 1) (nextLevel level)
  else []
termination_by Node.sizes level
decreasing_by
  -- the level has a root, and the level below has one node less for it
  have hpos := List.length_pos_iff.2 (‹level ≠ [] ∧ _›).1
  have hsizes := Node.sizes_nextLevel level
  omega

theorem levelsFrom_nil (maxDepth : Int) (depth : Nat) : levelsFrom maxDepth depth [] = [] := by
  rw [levelsFrom, if_neg (by simp)]

theorem levelsFrom_of_not_inReach {depth : Nat} (h : ¬ InReach maxDepth depth)
    (level : List Node) : levelsFrom maxDepth depth level = [] := by
  rw [levelsFrom, if_neg (fun hreach => h hreach.2)]

theorem levelsFrom_of_inReach {depth : Nat} (h : InReach maxDepth depth) (level : List Node) :
    levelsFrom maxDepth depth level =
      level.map (depth, ·) ++ levelsFrom maxDepth (depth + 1) (nextLevel level) := by
  rcases eq_or_ne level [] with rfl | hlevel
  · exact (levelsFrom_nil ..).trans (levelsFrom_nil ..).symm
  · rw [levelsFrom, if_pos ⟨hlevel, h⟩]

/-- A level and those below it start at their depth. -/
theorem le_of_mem_levelsFrom {depth : Nat} {level : List Node} {entry : Nat × Node}
    (h : entry ∈ levelsFrom maxDepth depth level) : depth ≤ entry.1 := by
  fun_induction levelsFrom maxDepth depth level with
  | case1 depth level hlevel ih =>
    rcases List.mem_append.1 h with h | h
    · obtain ⟨n, -, rfl⟩ := List.mem_map.1 h
      exact Nat.le_refl depth
    · exact Nat.le_of_succ_le (ih h)
  | case2 => cases h

/-- **The levels come one after the other.** -/
theorem pairwise_levelsFrom (maxDepth : Int) (depth : Nat) (level : List Node) :
    (levelsFrom maxDepth depth level).Pairwise fun a b => a.1 ≤ b.1 := by
  fun_induction levelsFrom maxDepth depth level with
  | case1 depth level hlevel ih =>
    refine List.pairwise_append.2 ⟨?_, ih, fun a ha b hb => ?_⟩
    · exact List.pairwise_map.2 (List.pairwise_of_forall fun _ _ => Nat.le_refl depth)
    · obtain ⟨n, -, rfl⟩ := List.mem_map.1 ha
      exact Nat.le_of_succ_le (le_of_mem_levelsFrom hb)
  | case2 => exact .nil

/-- What is within reach lies below what is within reach. -/
theorem InReach.of_le {depth deeper : Nat} (h : InReach maxDepth deeper) (hle : depth ≤ deeper) :
    InReach maxDepth depth := by
  unfold InReach at h ⊢
  omega

theorem inReach_zero (maxDepth : Int) : InReach maxDepth 0 :=
  lt_or_ge maxDepth 0

/-- The nodes of one depth are a level, or none where the depth is out of reach. -/
theorem filter_levelsFrom (maxDepth : Int) (depth k : Nat) (level : List Node) :
    ((levelsFrom maxDepth depth level).filter fun entry => entry.1 = depth + k) =
      if InReach maxDepth (depth + k) then (nextLevel^[k] level).map (depth + k, ·) else [] := by
  induction k generalizing depth level with
  | zero =>
    rw [Nat.add_zero, Function.iterate_zero_apply]
    split
    · next hreach =>
      -- what comes below is deeper
      have hbelow : (levelsFrom maxDepth (depth + 1) (nextLevel level)).filter
          (fun entry => entry.1 = depth) = [] := by
        refine List.filter_eq_nil_iff.2 fun entry hentry => ?_
        rw [decide_eq_true_iff]
        exact Nat.ne_of_gt (le_of_mem_levelsFrom hentry)
      rw [levelsFrom_of_inReach hreach, List.filter_append, hbelow, List.append_nil,
        List.filter_eq_self]
      simp
    · next hreach => rw [levelsFrom_of_not_inReach hreach, List.filter_nil]
  -- a deeper level is that much less deep below the next one
  | succ k ih =>
    by_cases hreach : InReach maxDepth depth
    · have hlevel : (level.map (depth, ·)).filter (fun entry => entry.1 = depth + (k + 1)) = [] :=
        by simp [List.filter_eq_nil_iff]
      rw [levelsFrom_of_inReach hreach, List.filter_append, hlevel, List.nil_append,
        show depth + (k + 1) = depth + 1 + k by omega, ih, Function.iterate_succ_apply]
    · rw [levelsFrom_of_not_inReach hreach, List.filter_nil,
        if_neg fun hdeeper => hreach (hdeeper.of_le (Nat.le_add_right depth _))]

/-! ### The queues -/

/-- Goes through some nodes one after the other, with a state that `visit` changes and by which it
may end. -/
def visitAll (visit : Nat → Node → σ → ForInStep σ) : List (Nat × Node) → σ → σ
  | [], s => s
  | (depth, n) :: rest, s =>
    match visit depth n s with
    | .done s => s
    | .yield s => visitAll visit rest s

/-- An entry one level deeper. -/
def deeper (entry : Nat × Node) : Nat × Node := (entry.1 + 1, entry.2)

theorem visitAll_map_deeper (visit : Nat → Node → σ → ForInStep σ) (entries : List (Nat × Node))
    (s : σ) :
    visitAll (fun depth => visit (depth + 1)) entries s =
      visitAll visit (entries.map deeper) s := by
  induction entries generalizing s with
  | nil => rfl
  | cons entry entries ih => simp only [List.map_cons, visitAll, deeper, ih]

/-- Collecting entries gives them back, the last one first. -/
theorem visitAll_collect (entries found : List (Nat × Node)) :
    visitAll (fun depth n found => .yield ((depth, n) :: found)) entries found =
      entries.reverse ++ found := by
  induction entries generalizing found with
  | nil => rfl
  | cons entry entries ih =>
    simp only [visitAll, ih]
    rw [List.reverse_cons, List.append_assoc, List.singleton_append]

/-- With the last node of a level done, the level below comes next. -/
theorem visitAll_last {visit : Nat → Node → σ → ForInStep σ} {depth : Nat} {n : Node} {s s' : σ}
    (hvisit : visit depth n s = .yield s') (next : List Node) :
    visitAll visit ([n].map (depth, ·) ++
        levelsFrom maxDepth (depth + 1) (next ++ nextLevel [n])) s =
      visitAll visit (levelsFrom maxDepth (depth + 1) (next ++ n.children)) s' := by
  simp [visitAll, hvisit, nextLevel]

/-- **The two queues.** What is left to come is the rest of the level, and then all levels from the
one on that the next queue will hold when the rest is done. -/
theorem walkLevels_eq (visit : Nat → Node → σ → ForInStep σ) (depth : Nat)
    (current next : List Node) (s : σ) (h : current = [] → next = []) :
    walkLevels maxDepth visit depth current next s =
      visitAll visit (current.map (depth, ·) ++
        levelsFrom maxDepth (depth + 1) (next ++ nextLevel current)) s := by
  -- the two queues are the rest of the level and, so far, the next one
  fun_induction walkLevels maxDepth visit depth current next s with
  | case1 depth next s =>
    rw [h rfl, nextLevel, List.flatMap_nil, List.append_nil, levelsFrom_nil]
    rfl
  | case2 depth n rest next s last hvisit => simp [visitAll, hvisit]
  | case3 depth n rest next s s' hvisit hrest ih =>
    rw [ih fun hnone => absurd hnone hrest, List.append_assoc]
    simp [visitAll, hvisit, nextLevel]
  | case4 depth n rest next s s' hvisit hrest hnext =>
    obtain rfl := not_not.1 hrest
    rw [visitAll_last hvisit, hnext, levelsFrom_nil]
    rfl
  | case5 depth n rest next s s' hvisit hrest hnext hdeep =>
    obtain rfl := not_not.1 hrest
    have hreach : ¬ InReach maxDepth (depth + 1) := by
      unfold InReach
      push_cast
      omega
    -- the next level is not in reach, so the walk ends as the levels do
    rw [visitAll_last hvisit, levelsFrom_of_not_inReach hreach]
    rfl
  | case6 depth n rest next s s' hvisit hrest hnext hdeep ih =>
    obtain rfl := not_not.1 hrest
    have hreach : InReach maxDepth (depth + 1) := by
      unfold InReach
      push_cast
      omega
    rw [ih fun _ => rfl, List.nil_append, visitAll_last hvisit, levelsFrom_of_inReach hreach]

/-- **Breadth first** is level by level. -/
theorem breadthFirst_eq (root : Node) (maxDepth : Int) :
    breadthFirst root maxDepth = levelsFrom maxDepth 0 root.children := by
  rw [breadthFirst, walkLevels_eq _ _ _ _ _ fun _ => rfl, List.nil_append,
    ← levelsFrom_of_inReach (inReach_zero maxDepth), visitAll_collect, List.append_nil,
    List.reverse_reverse]

/-- A visitor is shown the same nodes, one level deeper when counted from the root. -/
theorem Visitor.visitLevels_eq (v : Visitor σ) (root : Node) (maxDepth : Int) (s : σ) :
    v.visitLevels root maxDepth s =
      visitAll v.step ((breadthFirst root maxDepth).map deeper) s := by
  rw [visitLevels, walkLevels_eq _ _ _ _ _ fun _ => rfl, List.nil_append,
    ← levelsFrom_of_inReach (inReach_zero maxDepth), breadthFirst_eq, visitAll_map_deeper]

theorem Visitor.visitAll_step_cons (v : Visitor σ) (entry : Nat × Node)
    (entries : List (Nat × Node)) (s : σ) :
    visitAll v.step (entry :: entries) s =
      if v.stops s then s else visitAll v.step entries (v.enter entry.1 entry.2 s) := by
  rw [visitAll, step]
  cases v.stops s <;> rfl

/-- A visitor that goes through an order until it asks to end traverses it. -/
theorem Visitor.exists_traverses_visitAll (v : Visitor σ) (order : List (Nat × Node)) (s : σ) :
    ∃ entered, v.Traverses order.length order s entered (visitAll v.step order s) := by
  induction order generalizing s with
  | nil => exact ⟨[], .nil (.inl rfl)⟩
  | cons entry order ih =>
    rw [visitAll_step_cons]
    split
    · next hstops => exact ⟨[], .nil (.inr (.inr hstops))⟩
    · next hgoes =>
      obtain ⟨entered, htraverses⟩ := ih (v.enter entry.1 entry.2 s)
      exact ⟨entry :: entered, htraverses.cons (Bool.eq_false_iff.2 hgoes)⟩

/-! ### Depth first and breadth first -/

/-- The nodes of a level and of those below it are those of its trees. -/
theorem perm_levelsFrom (hall : maxDepth < 0) (depth : Nat) (level : List Node) :
    ((levelsFrom maxDepth depth level).map deeper).Perm
      (level.flatMap (Node.preorder (fun _ _ => false) (depth + 1))) := by
  fun_induction levelsFrom maxDepth depth level with
  | case1 depth level hlevel ih =>
    rw [List.map_append, List.map_map]
    -- each tree of the level is its root and the trees below it
    have htree : ∀ n : Node, Node.preorder (fun _ _ => false) (depth + 1) n =
        (depth + 1, n) :: n.children.flatMap (Node.preorder (fun _ _ => false) (depth + 2)) :=
      fun n => Node.preorder_eq ..
    rw [List.flatMap_congr fun n _ => htree n]
    refine (ih.append_left _).trans ?_
    rw [nextLevel, List.flatMap_assoc]
    exact List.map_append_flatMap_perm level _ _
  -- without a greatest depth only an empty level ends the order
  | case2 depth level hnone =>
    have hnil : level = [] := by
      by_contra hlevel
      exact hnone ⟨hlevel, .inl hall⟩
    rw [hnil]
    exact .nil

/-- Notes all nodes that it is shown, with their depths. -/
def noteAll : Visitor (List (Nat × Node)) where
  visit depth n noted := noted ++ [(depth, n)]

/-- A complete depth-first walk notes all places. -/
theorem depthFirst_noteAll {root : Node} {ceiling : Nat} (hall : root.size ≤ ceiling) :
    (noteAll.depthFirst root ceiling []).2 = Node.preorder (fun _ _ => false) 0 root := by
  have hshown : ∀ entries noted, noteAll.shown entries noted = noted ++ entries := by
    intro entries
    induction entries with
    | nil => exact fun noted => (List.append_nil noted).symm
    | cons entry entries ih =>
      intro noted
      rw [Visitor.shown_cons, ih]
      exact List.append_assoc noted [entry] entries
  rw [Visitor.depthFirst_of_size_le (fun _ => rfl) hall, hshown, Visitor.itinerary_eq]
  rfl

/-- **The nodes below the root**, breadth first and depth first. -/
theorem breadthFirst_perm (hall : maxDepth < 0) {root : Node} {ceiling : Nat}
    (hsize : root.size ≤ ceiling) :
    ∃ below, (noteAll.depthFirst root ceiling []).2 = (0, root) :: below ∧
      ((breadthFirst root maxDepth).map deeper).Perm below := by
  refine ⟨root.children.flatMap (Node.preorder (fun _ _ => false) 1), ?_, ?_⟩
  · rw [depthFirst_noteAll hsize, Node.preorder_eq]
    rfl
  · rw [breadthFirst_eq]
    exact perm_levelsFrom hall 0 root.children

/-- The nodes that are reported with one depth are the places of this depth below the root. -/
theorem filter_breadthFirst (root : Node) (maxDepth : Int) (depth : Nat) :
    ((breadthFirst root maxDepth).filter fun entry => entry.1 = depth) =
      if InReach maxDepth depth then
        (root.places.filter fun place => place.depth = depth + 1).map fun place =>
          (depth, place.node)
      else [] := by
  have hlevel := filter_levelsFrom maxDepth 0 depth root.children
  rw [Nat.zero_add] at hlevel
  rw [breadthFirst_eq, hlevel]
  congr 1
  -- the places at a depth are those of the iterated level
  have hplaces := Node.map_node_filter_depth root (depth + 1)
  rw [Function.iterate_succ_apply, nextLevel, List.flatMap_singleton] at hplaces
  rw [← hplaces, List.map_map]
  rfl

/-- **A breadth-first walk** reports each node below the root once, with its depth, as long as the
depth is within reach: the nodes of one depth in pre-order, and the depths in ascending order.
Without a limit it reports the same nodes as a depth-first walk enters behind the root. A visitor is
shown those of the reported nodes that it wants to see, up to the first one before which it asks to
end. -/
theorem breadthFirst_by_depth (root : Node) (maxDepth : Int) :
    (∀ depth, ((breadthFirst root maxDepth).filter fun entry => entry.1 = depth) =
        if InReach maxDepth depth then
          (root.places.filter fun place => place.depth = depth + 1).map fun place =>
            (depth, place.node)
        else []) ∧
      ((breadthFirst root maxDepth).Pairwise fun a b => a.1 ≤ b.1) ∧
      (maxDepth < 0 → ∀ ceiling, root.size ≤ ceiling →
        ∃ below, (noteAll.depthFirst root ceiling []).2 = (0, root) :: below ∧
          ((breadthFirst root maxDepth).map deeper).Perm below) ∧
      ∀ {σ : Type} (v : Visitor σ) (s : σ), ∃ entered,
        v.Traverses (breadthFirst root maxDepth).length ((breadthFirst root maxDepth).map deeper) s
          entered (v.visitLevels root maxDepth s) := by
  refine ⟨filter_breadthFirst root maxDepth, ?_, fun hall _ hsize => breadthFirst_perm hall hsize,
    fun v s => ?_⟩
  · rw [breadthFirst_eq]
    exact pairwise_levelsFrom maxDepth 0 root.children
  · rw [v.visitLevels_eq, ← List.length_map (f := deeper)]
    exact v.exists_traverses_visitAll _ s

/-- A tree whose branches end at three different depths. -/
def raggedTree : Node :=
  .mk ⟨"root", true, false, false, 0, 9⟩
    [.mk ⟨"a", true, false, false, 0, 3⟩
        [.mk ⟨"b", true, false, false, 0, 3⟩ [.mk ⟨"c", true, false, false, 0, 3⟩ []]],
      .mk ⟨"d", true, false, false, 3, 6⟩ [],
      .mk ⟨"e", true, false, false, 6, 9⟩ [.mk ⟨"f", true, false, false, 6, 9⟩ []]]

/-- Its nodes in the order of their depths, which is not the order of a depth-first walk. -/
theorem breadthFirst_by_depth_ragged :
    (breadthFirst raggedTree (-1)).map (fun entry => (entry.1, entry.2.kind)) =
        [(0, "a"), (0, "d"), (0, "e"), (1, "b"), (1, "f"), (2, "c")] ∧
      (-1 : Int) < 0 ∧ raggedTree.size ≤ 7 ∧
      ∃ below, (noteAll.depthFirst raggedTree 7 []).2 = (0, raggedTree) :: below ∧
        below.map (fun entry => entry.2.kind) = ["a", "b", "c", "d", "e", "f"] ∧
        ((breadthFirst raggedTree (-1)).map deeper).Perm below := by
  have hnegative : (-1 : Int) < 0 := by decide
  have hsize : raggedTree.size ≤ 7 := by decide +kernel
  obtain ⟨below, hbelow, hperm⟩ :=
    (breadthFirst_by_depth raggedTree (-1)).2.2.1 hnegative 7 hsize
  refine ⟨by decide +kernel, hnegative, hsize, below, hbelow, ?_, hperm⟩
  -- what the search found is evaluated, and `below` is what stands behind its root
  have htail : below = (noteAll.depthFirst raggedTree 7 []).2.tail := by
    rw [hbelow, List.tail_cons]
  rw [htail]
  decide +kernel

end CodeAssist.Tree
