import CodeAssist.Proofs.Analysis.Pruning

/-!
# Which block is the tightest

Of the blocks that the search may answer (`blocksAround`) it answers the one that ends first, and of
several that end there the one that it enters last (`tightestBlock_cases`). Where there is none it
answers the whole text.
-/

namespace CodeAssist.Analysis

open CodeAssist.Tree
open CodeAssist.Text (Point)

variable (tree : SyntaxTree) (p : Point) (minRows ceiling : Nat)

/-- The nodes of the least height around a point, in the order in which the search enters them. -/
def blocksAround : List Node :=
  ((blockSearch tree p).take ceiling).filter fun n => minRows ≤ height tree n && surrounds tree n p

variable {tree p minRows ceiling}

/-- They are entered, high enough, and around the point with both of their ends. -/
theorem mem_blocksAround_iff {n : Node} :
    n ∈ blocksAround tree p minRows ceiling ↔
      n ∈ (blockSearch tree p).take ceiling ∧ minRows ≤ height tree n ∧
        tree.startPoint n ≤ p ∧ p ≤ tree.stopPoint n := by
  simp [blocksAround, surrounds]

/-- The search keeps the tightest of these nodes. -/
theorem tightestBlock_eq (tree : SyntaxTree) (p : Point) (minRows ceiling : Nat) :
    tightestBlock tree p minRows ceiling =
      ((blocksAround tree p minRows ceiling).foldl
        (fun kept n => some (tighter kept (tree.excerpt n))) none).getD
          (tree.excerpt tree.root) := by
  rw [tightestBlock, Visitor.depthFirst_eq_foldl (fun _ => rfl), blocksAround, List.foldl_filter,
    blockSearch, ← List.map_take, List.foldl_map]
  rfl

/-- Of some nodes, those before `n` end no earlier than it does, and those behind it end later. -/
def EndsFirst (tree : SyntaxTree) (n : Node) (ns : List Node) : Prop :=
  ∃ earlier later, ns = earlier ++ n :: later ∧
    (∀ m ∈ earlier, tree.stopPoint n ≤ tree.stopPoint m) ∧
    ∀ m ∈ later, tree.stopPoint n < tree.stopPoint m

namespace EndsFirst

variable {n : Node} {ns : List Node}

/-- It is one of the nodes. -/
theorem mem (h : EndsFirst tree n ns) : n ∈ ns := by
  obtain ⟨earlier, later, rfl, -, -⟩ := h
  exact List.mem_append_right _ List.mem_cons_self

/-- None of the nodes ends before it. -/
theorem stopPoint_le (h : EndsFirst tree n ns) {m : Node} (hm : m ∈ ns) :
    tree.stopPoint n ≤ tree.stopPoint m := by
  obtain ⟨earlier, later, rfl, hearlier, hlater⟩ := h
  rcases List.mem_append.1 hm with hm | hm
  · exact hearlier m hm
  · rcases List.mem_cons.1 hm with rfl | hm
    · exact le_refl _
    · exact le_of_lt (hlater m hm)

/-- A node that ends later changes nothing. -/
theorem append_of_lt (h : EndsFirst tree n ns) {m : Node}
    (hlt : tree.stopPoint n < tree.stopPoint m) : EndsFirst tree n (ns ++ [m]) := by
  obtain ⟨earlier, later, rfl, hearlier, hlater⟩ := h
  refine ⟨earlier, later ++ [m], by simp, hearlier, fun k hk => ?_⟩
  rcases List.mem_append.1 hk with hk | hk
  · exact hlater k hk
  · rwa [List.mem_singleton.1 hk]

/-- Any other node takes its place. -/
theorem append_of_le (h : EndsFirst tree n ns) {m : Node}
    (hle : tree.stopPoint m ≤ tree.stopPoint n) : EndsFirst tree m (ns ++ [m]) :=
  ⟨ns, [], rfl, fun _ hk => le_trans hle (h.stopPoint_le hk), by simp⟩

end EndsFirst

/-- What is kept of some nodes is the one that ends first. -/
theorem exists_endsFirst (tree : SyntaxTree) {ns : List Node} (hne : ns ≠ []) :
    ∃ n, EndsFirst tree n ns ∧
      ns.foldl (fun kept n => some (tighter kept (tree.excerpt n))) none =
        some (tree.excerpt n) := by
  -- the nodes come one after the other, so the last one is compared last
  induction ns using List.reverseRecOn with
  | nil => exact absurd rfl hne
  | append_singleton ns m ih =>
    rw [List.foldl_append, List.foldl_cons, List.foldl_nil]
    rcases eq_or_ne ns [] with rfl | hns
    · exact ⟨m, ⟨[], [], rfl, by simp, by simp⟩, rfl⟩
    · obtain ⟨n, hn, hkept⟩ := ih hns
      rw [hkept]
      -- the new node takes the place unless the kept one ends before it
      by_cases hlt : tree.stopPoint n < tree.stopPoint m
      · exact ⟨n, hn.append_of_lt hlt, congrArg some (if_pos hlt)⟩
      · exact ⟨m, hn.append_of_le (not_lt.1 hlt), congrArg some (if_neg hlt)⟩

/-- **The tightest block** is the one of the blocks around the point that ends first. Without one it
is the whole text. -/
theorem tightestBlock_cases (tree : SyntaxTree) (p : Point) (minRows ceiling : Nat) :
    (blocksAround tree p minRows ceiling = [] ∧
        tightestBlock tree p minRows ceiling = tree.excerpt tree.root) ∨
      ∃ n, EndsFirst tree n (blocksAround tree p minRows ceiling) ∧
        tightestBlock tree p minRows ceiling = tree.excerpt n := by
  rw [tightestBlock_eq]
  by_cases hne : blocksAround tree p minRows ceiling = []
  · rw [hne]
    exact .inl ⟨rfl, rfl⟩
  · obtain ⟨n, hn, hkept⟩ := exists_endsFirst tree hne
    rw [hkept]
    exact .inr ⟨n, hn, rfl⟩

/-- **Where the tightest block ends**, for a point before the end of the whole text: at the point
only where one of the blocks around it does, and otherwise behind it. -/
theorem stop_tightestBlock (minRows ceiling : Nat) (hroot : p < tree.stopPoint tree.root) :
    p ≤ (tightestBlock tree p minRows ceiling).stop ∧
      ((tightestBlock tree p minRows ceiling).stop = p ↔
        ∃ n ∈ blocksAround tree p minRows ceiling, tree.stopPoint n = p) := by
  rcases tightestBlock_cases tree p minRows ceiling with ⟨hnone, hblock⟩ | ⟨n, hn, hblock⟩
  · rw [hblock, hnone]
    -- the root ends behind the point, and so does no block that was not found
    refine ⟨le_of_lt hroot, fun hstop => absurd hstop (ne_of_gt hroot), ?_⟩
    rintro ⟨n, hmem, -⟩
    cases hmem
  · rw [hblock]
    have hle : p ≤ tree.stopPoint n := (mem_blocksAround_iff.1 hn.mem).2.2.2
    refine ⟨hle, fun hstop => ⟨n, hn.mem, hstop⟩, ?_⟩
    rintro ⟨m, hm, rfl⟩
    exact le_antisymm (hn.stopPoint_le hm) hle

end CodeAssist.Analysis
