import CodeAssist.Proofs.Analysis.Nesting
import CodeAssist.Proofs.Analysis.Pruning
import Mathlib.Data.List.Pairwise

/-!
# Innermost errors

The search for errors never looks at what lies below what. It keeps the errors met so far and throws
out those whose span holds the span of the next one. So in the end it has kept each error that no
later one lies within (`foldl_keepInner`).

A node with an erroneous child is thrown out in this way, because the child comes later and lies
within it. So only innermost errors are answered. Not all of them are. A node that lies behind an
innermost error has a span within that of the error if it is empty and stands at its very end: a
token that the parser missed there is such a node. It takes the place of the error before it,
although neither contains the other.

Main statement: `innermostErrors_by_nodes`.
-/

namespace CodeAssist.Analysis

open CodeAssist.Tree
open CodeAssist.Text (Point)

/-! ### Lists in which later elements displace earlier ones -/

section Displacing

variable {α : Type} {R S : α → α → Prop} [DecidableRel R] [DecidableRel S]

theorem forall_pwFilter_iff (hR : ∀ x y z, R x z → R x y ∨ R y z) {l : List α} {a : α} :
    (∀ b ∈ l.pwFilter R, R a b) ↔ ∀ b ∈ l, R a b :=
  List.forall_mem_pwFilter (R := R) (hR _ _ _) a l

/-- A new element throws out those that are unrelated to it. -/
theorem pwFilter_append_singleton (hR : ∀ x y z, R x z → R x y ∨ R y z) (l : List α) (x : α) :
    (l ++ [x]).pwFilter R = (l.pwFilter R).filter (R · x) ++ [x] := by
  induction l with
  | nil => rfl
  | cons a l ih =>
    rw [List.cons_append]
    by_cases hall : ∀ b ∈ l ++ [x], R a b
    · -- the first element stays, with the new one and without it
      have hl : ∀ b ∈ l, R a b := fun b hb => hall b (List.mem_append_left _ hb)
      have hx : R a x := hall x (List.mem_append_right _ List.mem_cons_self)
      rw [List.pwFilter_cons_of_pos ((forall_pwFilter_iff hR).2 hall), ih,
        List.pwFilter_cons_of_pos ((forall_pwFilter_iff hR).2 hl),
        List.filter_cons_of_pos (by simpa using hx), List.cons_append]
    · rw [List.pwFilter_cons_of_neg (mt (forall_pwFilter_iff hR).1 hall), ih]
      by_cases hl : ∀ b ∈ l, R a b
      · -- only the new element is unrelated to the first one
        have hx : ¬ R a x := by
          intro hx
          refine hall fun b hb => ?_
          rcases List.mem_append.1 hb with hb | hb
          · exact hl b hb
          · rwa [List.mem_singleton.1 hb]
        rw [List.pwFilter_cons_of_pos ((forall_pwFilter_iff hR).2 hl),
          List.filter_cons_of_neg (by simpa using hx)]
      · -- it was thrown out before
        rw [List.pwFilter_cons_of_neg (mt (forall_pwFilter_iff hR).1 hl)]

/-- Elements that a later one displaces may be left out from the start. -/
theorem pwFilter_filter_of_displaced (hR : ∀ x y z, R x z → R x y ∨ R y z) {l : List α}
    {p q : α → Bool} (hqp : ∀ x, q x = true → p x = true)
    (hdisplaced : ∀ x behind, x :: behind <:+ l → p x = true → q x = false →
      ∃ y ∈ behind, p y = true ∧ ¬ R x y) :
    (l.filter p).pwFilter R = (l.filter q).pwFilter R := by
  induction l with
  | nil => rfl
  | cons x l ih =>
    -- the element shows up in no rest of the list, so `hdisplaced` holds of the rest as it is
    have hrest := ih fun y behind h => hdisplaced y behind (h.trans (List.suffix_cons x l))
    by_cases hq : q x = true
    · -- the element stays in both lists and meets the same elements there
      rw [List.filter_cons_of_pos (hqp x hq), List.filter_cons_of_pos hq]
      by_cases hall : ∀ b ∈ (l.filter q).pwFilter R, R x b
      · rw [List.pwFilter_cons_of_pos (hrest ▸ hall), List.pwFilter_cons_of_pos hall, hrest]
      · rw [List.pwFilter_cons_of_neg (hrest ▸ hall), List.pwFilter_cons_of_neg hall, hrest]
    · rw [List.filter_cons_of_neg hq]
      by_cases hp : p x = true
      · -- the element is displaced in the longer list, and the shorter one lacks it
        obtain ⟨y, hy, hpy, hxy⟩ :=
          hdisplaced x l (List.suffix_refl _) hp (Bool.eq_false_iff.2 hq)
        have hnot : ¬ ∀ b ∈ l.filter p, R x b := fun hall =>
          hxy (hall y (List.mem_filter.2 ⟨hy, hpy⟩))
        rw [List.filter_cons_of_pos hp,
          List.pwFilter_cons_of_neg (mt (forall_pwFilter_iff hR).1 hnot), hrest]
      · rw [List.filter_cons_of_neg hp, hrest]

/-- Only what elements have to do with later ones counts. -/
theorem pwFilter_congr {l : List α} (h : l.Pairwise fun a b => R a b ↔ S a b) :
    l.pwFilter R = l.pwFilter S := by
  induction l with
  | nil => rfl
  | cons a l ih =>
    obtain ⟨hfirst, hrest⟩ := List.pairwise_cons.1 h
    have heq := ih hrest
    -- the same is kept of the rest, so the first element is compared with the same elements
    have hiff : (∀ b ∈ l.pwFilter R, R a b) ↔ ∀ b ∈ l.pwFilter S, S a b := by
      rw [heq]
      exact forall₂_congr fun b hb => hfirst b (List.pwFilter_subset l hb)
    by_cases hall : ∀ b ∈ l.pwFilter S, S a b
    · rw [List.pwFilter_cons_of_pos (hiff.2 hall), List.pwFilter_cons_of_pos hall, heq]
    · rw [List.pwFilter_cons_of_neg (mt hiff.1 hall), List.pwFilter_cons_of_neg hall, heq]

end Displacing

/-! ### Errors that are kept -/

section Search

variable (tree : SyntaxTree)

/-- A node outlasts a later one that does not lie within it. -/
def Outlasts (n later : Node) : Prop :=
  liesWithin (tree.excerpt later) (tree.excerpt n) = false

instance : DecidableRel (Outlasts tree) := fun _ _ => inferInstanceAs (Decidable (_ = _))

variable {tree} in
theorem not_outlasts_iff {n later : Node} :
    ¬ Outlasts tree n later ↔
      tree.startPoint n ≤ tree.startPoint later ∧ tree.stopPoint later ≤ tree.stopPoint n := by
  rw [Outlasts, Bool.not_eq_false, liesWithin_excerpt_iff]

/-- What lies within a node lies within all nodes that this one lies within. -/
theorem outlasts_trans (x y z : Node) (h : Outlasts tree x z) :
    Outlasts tree x y ∨ Outlasts tree y z := by
  by_contra hnot
  rw [not_or, not_outlasts_iff, not_outlasts_iff] at hnot
  obtain ⟨⟨hstart, hstop⟩, hstart', hstop'⟩ := hnot
  exact not_outlasts_iff.2 ⟨le_trans hstart hstart', le_trans hstop' hstop⟩ h

/-- **What the search keeps** are the nodes that outlast all later ones. -/
theorem foldl_keepInner (ns : List Node) :
    ns.foldl (fun kept n => keepInner kept (tree.excerpt n)) [] =
      (ns.pwFilter (Outlasts tree)).map tree.excerpt := by
  -- the nodes come one after the other, so the last one throws out others last
  induction ns using List.reverseRecOn with
  | nil => rfl
  | append_singleton ns inner ih =>
    rw [List.foldl_append, List.foldl_cons, List.foldl_nil, ih,
      pwFilter_append_singleton (outlasts_trans tree), keepInner, List.map_append, List.filter_map]
    congr 3
    funext n
    change (!liesWithin _ _) = decide (liesWithin _ _ = false)
    cases liesWithin (tree.excerpt inner) (tree.excerpt n) <;> rfl

/-- The search answers the errors that it enters and that outlast all later ones. -/
theorem innermostErrors_eq (ceiling : Nat) :
    innermostErrors tree ceiling =
      ((((errorSearch tree).take ceiling).filter Node.hasError).pwFilter (Outlasts tree)).map
        tree.excerpt := by
  rw [← foldl_keepInner, List.foldl_filter, errorSearch, ← List.map_take, List.foldl_map,
    innermostErrors, Visitor.depthFirst_eq_foldl fun _ => rfl]
  rfl

/-! ### Innermost nodes -/

/-- A node with an error of which no child has one. -/
def isInnermost (n : Node) : Bool :=
  n.hasError && n.children.all fun child => !child.hasError

/-- The innermost nodes with an error, in pre-order. -/
def innermostNodes (root : Node) : List Node :=
  root.nodes.filter isInnermost

/-- A later node that is empty and stands at the end of another one. -/
def EmptyAtEnd (n later : Node) : Prop :=
  tree.startPoint later = tree.stopPoint n ∧ tree.stopPoint later = tree.stopPoint n

instance : DecidableRel (EmptyAtEnd tree) := fun _ _ => inferInstanceAs (Decidable (_ ∧ _))

variable {tree} {root : Node}

/-- Of two innermost nodes the later one lies behind the earlier one. -/
theorem pairwise_innermostNodes (h : root.WellFormed) :
    (innermostNodes root).Pairwise fun a b => a.stop ≤ b.start := by
  refine (h.nested.pairwise_nodes.filter isInnermost).imp_of_mem fun {a b} ha hb hab => ?_
  -- by pre-order the first ends before the second, unless the second lies below it
  refine hab.resolve_left fun hbelow => ?_
  -- no node with an error lies below one that has no child with an error
  obtain ⟨hmem, ha⟩ := List.mem_filter.1 ha
  obtain ⟨-, hb⟩ := List.mem_filter.1 hb
  obtain ⟨child, hchild, hbelow⟩ := List.mem_flatMap.1 hbelow
  have hwell : child.WellFormed := (Node.Every.of_mem_nodes h hmem).of_mem_children child hchild
  have hnone : child.hasError = false := by
    simpa using List.all_eq_true.1 (Bool.and_eq_true_iff.1 ha).2 child hchild
  rw [isInnermost, hwell.hasError_eq_false hnone hbelow] at hb
  cases hb

/-- A node that lies behind another one lies within it only where it is empty and at its end. -/
theorem outlasts_iff_of_le {n later : Node} (hn : n.Forward) (hlater : later.Forward)
    (h : n.stop ≤ later.start) :
    Outlasts tree n later ↔ ¬ EmptyAtEnd tree n later := by
  have hbehind : tree.stopPoint n ≤ tree.startPoint later := Text.pointAt_mono h _
  have hforward := tree.startPoint_le_stopPoint hn
  have hforward' := tree.startPoint_le_stopPoint hlater
  rw [iff_not_comm, not_outlasts_iff]
  -- the end of the one and the two points of the other are all in this order
  constructor
  -- later at both ends: then both are empty and stand at one point
  · rintro ⟨hstart, hstop⟩
    exact ⟨hforward.trans hstart.ge, hstop.le⟩
  · rintro ⟨-, hstop⟩
    exact ⟨le_antisymm (le_trans hforward' hstop) hbehind,
      le_antisymm hstop (le_trans hbehind hforward')⟩

/-- Nothing with an error lies below a node that the search prunes. -/
theorem filter_errorSearch (h : tree.root.WellFormed) :
    (errorSearch tree).filter Node.hasError = tree.root.nodes.filter Node.hasError := by
  refine Node.filter_preorder (h.every.imp fun n hn depth hnone b hb => ?_) 0
  exact Node.WellFormed.hasError_eq_false hn (by simpa using hnone)
    (Node.mem_nodes_of_mem_descendants hb)

/-- Nodes with an erroneous child may be left out from the start. -/
theorem pwFilter_hasError_eq (h : tree.root.WellFormed) :
    (tree.root.nodes.filter Node.hasError).pwFilter (Outlasts tree) =
      (innermostNodes tree.root).pwFilter (Outlasts tree) := by
  refine pwFilter_filter_of_displaced (outlasts_trans tree)
    (fun n hn => (Bool.and_eq_true_iff.1 hn).1) fun n behind hbehind hn hnot => ?_
  obtain ⟨child, hchild, herror⟩ : ∃ child ∈ n.children, child.hasError = true := by
    simpa [isInnermost, hn] using hnot
  -- the child comes later and lies within its parent
  have hmem : n ∈ tree.root.nodes := hbehind.subset List.mem_cons_self
  obtain ⟨hstart, hstop⟩ := (h.nested.of_mem_nodes hmem).here.within child hchild
  exact ⟨child, Node.mem_of_suffix_nodes hbehind child hchild, herror,
    not_outlasts_iff.2 (tree.points_of_span hstart hstop)⟩

/-- Where the ceiling covers the tree, what is answered is found among the innermost nodes alone. -/
theorem innermostErrors_eq_of_size_le (h : tree.root.WellFormed) {ceiling : Nat}
    (hall : tree.root.size ≤ ceiling) :
    innermostErrors tree ceiling =
      ((innermostNodes tree.root).pwFilter fun n later => ¬ EmptyAtEnd tree n later).map
        tree.excerpt := by
  have hlength : (errorSearch tree).length ≤ ceiling := le_trans (length_errorSearch_le tree) hall
  rw [innermostErrors_eq, List.take_of_length_le hlength, filter_errorSearch h,
    pwFilter_hasError_eq h]
  -- the two relations agree on nodes that follow each other, and the innermost nodes do
  refine congrArg _ (pwFilter_congr ((pairwise_innermostNodes h).imp_of_mem ?_))
  intro n later hn hlater hle
  have hforward : ∀ m ∈ innermostNodes tree.root, m.Forward := fun m hm =>
    (h.nested.of_mem_nodes (List.mem_of_mem_filter hm)).here.forward
  exact outlasts_iff_of_le (hforward n hn) (hforward later hlater) hle

/-- **Innermost errors.** With a ceiling that covers a well-formed tree, the innermost nodes with an
error are answered in pre-order, except those at whose end an empty one stands behind them. So all
of them are answered only where there are no such two. -/
theorem innermostErrors_by_nodes (h : tree.root.WellFormed) {ceiling : Nat}
    (hall : tree.root.size ≤ ceiling) :
    innermostErrors tree ceiling =
        ((innermostNodes tree.root).pwFilter fun n later => ¬ EmptyAtEnd tree n later).map
          tree.excerpt ∧
      (innermostErrors tree ceiling = (innermostNodes tree.root).map tree.excerpt ↔
        (innermostNodes tree.root).Pairwise fun n later => ¬ EmptyAtEnd tree n later) := by
  have hanswer := innermostErrors_eq_of_size_le h hall
  refine ⟨hanswer, fun heq => ?_, fun hnone => ?_⟩
  · -- as many are answered as there are, so none of them is left out
    have hlength := congrArg List.length (hanswer.symm.trans heq)
    rw [List.length_map, List.length_map] at hlength
    exact List.pwFilter_eq_self.1 ((List.pwFilter_sublist _).eq_of_length hlength)
  · rw [hanswer, List.pwFilter_eq_self.2 hnone]

/-- A block with an open bracket that the parser cannot place, and without its closing brace, which
is missing right behind the bracket. -/
def unclosedBlock : SyntaxTree where
  source := "\x7b("
  language := .scala
  root := .mk ⟨"block", true, true, false, 0, 2⟩
    [.mk ⟨"\x7b", false, false, false, 0, 1⟩ [],
      .mk ⟨"ERROR", true, true, false, 1, 2⟩ [.mk ⟨"(", false, false, false, 1, 2⟩ []],
      .mk ⟨"\x7d", false, true, false, 2, 2⟩ []]

/-- Of the two innermost errors only the missing brace is answered. -/
theorem innermostErrors_by_nodes_unclosedBlock :
    unclosedBlock.root.WellFormed ∧ unclosedBlock.root.size ≤ 5 ∧
      (innermostNodes unclosedBlock.root).map unclosedBlock.excerpt =
        [⟨"(", ⟨0, 1⟩, ⟨0, 2⟩⟩, ⟨"", ⟨0, 2⟩, ⟨0, 2⟩⟩] ∧
      innermostErrors unclosedBlock 5 = [⟨"", ⟨0, 2⟩, ⟨0, 2⟩⟩] := by
  have hleaf : ∀ label : Label, label.start ≤ label.stop → (Node.mk label []).WellFormed :=
    fun label hle => Node.wellFormed_of_leaf rfl hle
  -- the error node reaches over its bracket, and the missing token stands behind it
  have hbracket : (Node.mk ⟨"ERROR", true, true, false, 1, 2⟩
      [.mk ⟨"(", false, false, false, 1, 2⟩ []]).WellFormed := by
    refine .intro ⟨?_, by decide, by decide, by decide⟩ ?_
    · exact Nat.le_succ 1
    · rintro child hchild
      rw [List.mem_singleton.1 hchild]
      exact hleaf _ (Nat.le_succ 1)
  have hwell : unclosedBlock.root.WellFormed := by
    refine .intro ⟨Nat.zero_le 2, by decide, by decide, by decide⟩ ?_
    simpa [unclosedBlock, Node.children] using
      ⟨hleaf _ (Nat.zero_le 1), hbracket, hleaf _ (le_refl 2)⟩
  have hsize : unclosedBlock.root.size ≤ 5 := by decide +kernel
  refine ⟨hwell, hsize, by decide +kernel, ?_⟩
  -- the general theorem gives the answer without walking the tree
  rw [(innermostErrors_by_nodes hwell hsize).1]
  decide +kernel

end Search

end CodeAssist.Analysis
