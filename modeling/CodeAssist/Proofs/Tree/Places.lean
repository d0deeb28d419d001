import CodeAssist.Proofs.Tree.AllNodes
import Mathlib.Data.List.Basic
import Mathlib.Logic.Function.Iterate

/-!
# Places in a tree

A node does not say what lies above it, and two nodes of one tree can be equal. A place is a node
together with the nodes above it (`Place`), and the places of a tree in pre-order (`Node.places`)
are what statements about ancestors and depths are made of.

Two lists that are defined by other recursions are parts of it. A pruned pre-order is what remains
when the places below a skipped node are struck out (`Node.preorder_eq_places`), and the nodes of
one depth are a level of the tree (`Node.map_node_filter_depth`).
-/

namespace CodeAssist.Tree

/-- A node with the nodes above it, from its parent up to the root. -/
structure Place where
  above : List Node
  node : Node

namespace Place

/-- Number of nodes above. -/
def depth (place : Place) : Nat := place.above.length

/-- The node with its depth, as a walk enters it. -/
def entry (place : Place) : Nat × Node := (place.depth, place.node)

end Place

namespace Node

mutual
/-- The places of a tree that hangs below some nodes, in pre-order. -/
def placesUnder (above : List Node) : Node → List Place
  | mk label children =>
    ⟨above, mk label children⟩ :: forestPlaces (mk label children :: above) children

/-- The places of a forest that hangs below some nodes, tree by tree. -/
def forestPlaces (above : List Node) : List Node → List Place
  | [] => []
  | n :: ns => placesUnder above n ++ forestPlaces above ns
end

/-- The places of a tree, in pre-order. -/
def places (root : Node) : List Place := root.placesUnder []

theorem forestPlaces_eq (above ns : List Node) :
    forestPlaces above ns = ns.flatMap (placesUnder above) := by
  induction ns with
  | nil => rfl
  | cons n ns ih => rw [forestPlaces, ih, List.flatMap_cons]

/-- A node comes first among the places of its tree, and lies above all others. -/
theorem placesUnder_eq (above : List Node) (n : Node) :
    n.placesUnder above = ⟨above, n⟩ :: n.children.flatMap (placesUnder (n :: above)) := by
  cases n with
  | mk label children => rw [placesUnder, forestPlaces_eq, Node.children]

/-- The places of a tree hold its nodes. -/
theorem map_node_placesUnder (above : List Node) (n : Node) :
    (n.placesUnder above).map Place.node = n.nodes := by
  induction n using Node.induction generalizing above with
  | step n ih =>
    rw [placesUnder_eq, nodes_eq, List.map_cons, List.map_flatMap, descendants]
    exact congrArg _ (List.flatMap_congr fun child hchild => ih child hchild _)

/-- What a tree hangs below lies above all of its places. -/
theorem suffix_above {above : List Node} {n : Node} {place : Place}
    (h : place ∈ n.placesUnder above) : above <:+ place.above := by
  induction n using Node.induction generalizing above with
  | step n ih =>
    rw [placesUnder_eq, List.mem_cons, List.mem_flatMap] at h
    -- what is above a child is the node and what is above the node
    rcases h with rfl | ⟨child, hchild, h⟩
    · exact List.suffix_refl above
    · exact (List.suffix_cons n above).trans (ih child hchild h)

/-! ### Pruning -/

/-- Whether one of some nodes, each of which lies below the next, is skipped. -/
def anySkipped (skips : Nat → Node → Bool) : List Node → Bool
  | [] => false
  | n :: above => skips above.length n || anySkipped skips above

variable {skips : Nat → Node → Bool} {above : List Node}

/-- Below a skipped node everything is. -/
theorem anySkipped_of_suffix {above' : List Node} (hsuffix : above <:+ above')
    (h : anySkipped skips above = true) : anySkipped skips above' = true := by
  induction above' with
  | nil => rwa [← List.suffix_nil.1 hsuffix]
  | cons n above' ih =>
    rcases List.suffix_cons_iff.1 hsuffix with rfl | hsuffix
    · exact h
    · rw [anySkipped, ih hsuffix, Bool.or_true]

/-- **A pruned order** is the pre-order without the places below a skipped node. -/
theorem preorder_eq_placesUnder (h : anySkipped skips above = false) (n : Node) :
    preorder skips above.length n =
      ((n.placesUnder above).filter fun place => !anySkipped skips place.above).map
        Place.entry := by
  induction n using Node.induction generalizing above with
  | step n ih =>
    rw [preorder_eq, placesUnder_eq, List.filter_cons_of_pos (by simpa using h), List.map_cons]
    refine congrArg _ ?_
    split
    · next hskips =>
      -- the node is skipped, and lies above all that remains
      have hbelow : anySkipped skips (n :: above) = true := by rw [anySkipped, hskips, Bool.true_or]
      symm
      rw [List.map_eq_nil_iff, List.filter_eq_nil_iff]
      intro place hplace
      obtain ⟨child, -, hplace⟩ := List.mem_flatMap.1 hplace
      simp [anySkipped_of_suffix (suffix_above hplace) hbelow]
    -- nothing above the children is skipped, so their trees are compared one by one
    · next hskips =>
      have hbelow : anySkipped skips (n :: above) = false := by
        rw [anySkipped, h, Bool.or_false]
        exact Bool.eq_false_iff.2 hskips
      rw [List.filter_flatMap, List.map_flatMap]
      exact List.flatMap_congr fun child hchild => ih child hchild hbelow

theorem preorder_eq_places (skips : Nat → Node → Bool) (root : Node) :
    preorder skips 0 root =
      (root.places.filter fun place => !anySkipped skips place.above).map Place.entry := by
  have hnone : anySkipped skips [] = false := rfl
  exact preorder_eq_placesUnder hnone root

/-! ### Levels -/

/-- A level below a forest holds what belongs to its first tree, then what belongs to the next. -/
theorem iterate_nextLevel (k : Nat) (ns : List Node) :
    nextLevel^[k] ns = ns.flatMap fun n => nextLevel^[k] [n] := by
  induction k generalizing ns with
  | zero => exact (List.flatMap_singleton' ns).symm
  | succ k ih =>
    rw [Function.iterate_succ_apply, ih, nextLevel, List.flatMap_assoc]
    refine List.flatMap_congr fun n _ => ?_
    rw [Function.iterate_succ_apply, nextLevel, List.flatMap_singleton]
    exact (ih n.children).symm

/-- **The nodes of one depth** are, in pre-order, a level of the tree. -/
theorem map_node_filter_depthUnder (above : List Node) (n : Node) (k : Nat) :
    ((n.placesUnder above).filter fun place => place.depth = above.length + k).map Place.node =
      nextLevel^[k] [n] := by
  induction k generalizing above n with
  | zero =>
    -- all other places are deeper than the first one
    rw [placesUnder_eq, List.filter_cons_of_pos (by simp [Place.depth]), List.filter_eq_nil_iff.2]
    · rfl
    · intro place hplace
      obtain ⟨child, -, hplace⟩ := List.mem_flatMap.1 hplace
      have hlt : above.length < place.depth := (suffix_above hplace).length_le
      rw [decide_eq_true_iff]
      exact (Nat.ne_of_lt hlt).symm
  -- the node's own place is not deep enough, and a child's depth is counted from below the node
  | succ k ih =>
    rw [placesUnder_eq, List.filter_cons_of_neg (by simp [Place.depth]), List.filter_flatMap,
      List.map_flatMap, Function.iterate_succ_apply, nextLevel, List.flatMap_singleton,
      iterate_nextLevel]
    refine List.flatMap_congr fun child _ => ?_
    rw [← ih (n :: above) child, List.length_cons, Nat.add_right_comm, Nat.add_assoc]

theorem map_node_filter_depth (root : Node) (k : Nat) :
    (root.places.filter fun place => place.depth = k).map Place.node = nextLevel^[k] [root] := by
  rw [← map_node_filter_depthUnder [] root k, List.length_nil, Nat.zero_add, places]

end Node

end CodeAssist.Tree
