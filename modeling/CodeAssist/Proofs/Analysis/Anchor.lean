import CodeAssist.Analysis.Context
import CodeAssist.Proofs.Analysis.Parsed

/-!
# Where the rest of an anchor begins

The anchor of a cursor is found by rows alone, so it lies on the cursor's row
(`exists_node_of_contextAnchor?`) but need not enclose the cursor. It may start behind it: the
cursor, as seen from the anchor, is then its very first point, since a point's distance to an
anchor ahead is cut off at zero.

Main statements: where the anchor starts at or before the cursor, its rest is what the code behind
the cursor starts with (`isPrefix_of_restOfAnchor?`); where the anchor is ahead, its rest is all of
its text, and what stands between the cursor and the anchor is left out (`restOfAnchor?_of_lt`).
Both hold for every tree, because offsets of a node that are no cuts of the text leave it without
text.
-/

namespace CodeAssist.Analysis

open CodeAssist.Text (Point endPoint)
open CodeAssist.Tree

/-! ### The anchor's row -/

/-- The kept node, where there is one, lies on the row. -/
def KeptOnRow (tree : SyntaxTree) (row : Nat) (best : Option (Nat × Excerpt)) : Prop :=
  ∀ rank kept, best = some (rank, kept) → ∃ n, tree.meetsRow n row = true ∧ kept = tree.excerpt n

/-- Showing a node keeps nodes of the row. -/
theorem contextVisitor_visit_keptOnRow (tree : SyntaxTree) (row : Nat) (ranking : List String)
    (depth : Nat) (n : Node) (best : Option (Nat × Excerpt)) (h : KeptOnRow tree row best) :
    KeptOnRow tree row ((contextVisitor tree row ranking).visit depth n best) := by
  intro rank kept hkept
  simp only [contextVisitor] at hkept
  split at hkept
  case isFalse => exact h rank kept hkept
  -- the node is named and lies on the row, so it may be written down; the rank only decides whether
  case isTrue hnamed =>
    have hrow : tree.meetsRow n row = true := ((Bool.and_eq_true ..).mp hnamed).2
    -- the first node of the ranking, one of a better rank, or one of no better rank
    split at hkept
    · exact h rank kept hkept
    · exact ⟨n, hrow, (Prod.mk.inj (Option.some.inj hkept)).2.symm⟩
    · split at hkept
      · exact ⟨n, hrow, (Prod.mk.inj (Option.some.inj hkept)).2.symm⟩
      · exact h rank kept hkept

/-- **The anchor lies on the cursor's row.** -/
theorem exists_node_of_contextAnchor? {tree : SyntaxTree} {p : Point} {ceiling : Nat}
    {anchor : Excerpt} (h : contextAnchor? tree p ceiling = some anchor) :
    ∃ n, tree.meetsRow n p.row = true ∧ anchor = tree.excerpt n := by
  obtain ⟨⟨rank, kept⟩, hbest, rfl⟩ := Option.map_eq_some_iff.1 h
  have hkept : KeptOnRow tree p.row none := fun _ _ hnone => by simp at hnone
  exact Visitor.walk_preserves (contextVisitor_visit_keptOnRow tree p.row _) hkept rank kept hbest

/-! ### The rest of the anchor -/

/-- An anchor follows the code before the cursor only behind a gap on the cursor's row. -/
def BehindGap (before after : List Char) (anchor : Excerpt) : Prop :=
  ∃ gap, gap ≠ [] ∧ '\n' ∉ gap ∧ endPoint (before ++ gap) = anchor.start ∧
    gap ++ anchor.text.toList <+: after

variable {a text b before after first rest : List Char}

/-- Within an anchor that starts at or before the cursor, the rest is what the code behind the
cursor starts with. -/
theorem isPrefix_of_splitAtPoint? (hcode : a ++ text ++ b = before ++ after) (ha : a <+: before)
    (hne : text ≠ [])
    (h : Text.splitAtPoint? text ((endPoint a).relativeTo (endPoint before)) =
      some (first, rest)) : rest <+: after := by
  obtain ⟨m, rfl⟩ := ha
  rw [Text.endPoint_append, Point.relativeTo_absolute] at h
  obtain ⟨rfl, hend⟩ := (Text.splitAtPoint?_eq_some_iff hne).1 h
  -- what stands before the point lies behind the anchor's start, and is `m`
  have hcode : first ++ (rest ++ b) = m ++ after := by
    simpa only [List.append_assoc, List.append_cancel_left_eq] using hcode
  -- both start the same text and end at the same point, so they are one
  obtain rfl : first = m :=
    Text.eq_of_endPoint_eq ⟨rest ++ b, rfl⟩ ⟨after, hcode.symm⟩ hend
  exact ⟨b, List.append_cancel_left hcode⟩

/-- Behind a gap on one row the cursor is seen as the very first point. -/
theorem relativeTo_of_gap {gap : List Char}
    (hrow : (endPoint (before ++ gap)).row ≤ (endPoint before).row) :
    '\n' ∉ gap ∧ (endPoint (before ++ gap)).relativeTo (endPoint before) = ⟨0, 0⟩ := by
  have hgap : (endPoint gap).row = 0 := by
    rw [Text.endPoint_append] at hrow
    simp only [Point.absolute] at hrow
    omega
  constructor
  · rw [Text.endPoint_row] at hgap
    exact List.count_eq_zero.1 hgap
  · rw [Text.endPoint_append]
    simp [Point.relativeTo, Point.absolute, hgap]

variable {tree : SyntaxTree} {ceiling : Nat} {anchor : Excerpt}

/-- An anchor with text is a piece of the code that starts on the cursor's row or above. -/
theorem exists_parts_of_contextAnchor? (hsource : tree.source.toList = before ++ after)
    (hanchor : contextAnchor? tree (endPoint before) ceiling = some anchor)
    (htext : anchor.text ≠ "") :
    ∃ a b, a ++ anchor.text.toList ++ b = before ++ after ∧ a <+: before ++ after ∧
      anchor.start = endPoint a ∧ (endPoint a).row ≤ (endPoint before).row := by
  obtain ⟨n, hrow, rfl⟩ := exists_node_of_contextAnchor? hanchor
  obtain ⟨a, b, hparts, hstart⟩ := SyntaxTree.exists_parts_of_textOf htext
  have hcode := hparts.symm.trans hsource
  refine ⟨a, b, hcode, ⟨(tree.textOf n).toList ++ b, ?_⟩, hstart, ?_⟩
  · rw [← hcode, List.append_assoc]
  · rw [← hstart]
    simpa using ((Bool.and_eq_true ..).mp hrow).1

/-- **An anchor ahead of the cursor** follows behind a gap, and its rest is all of its text. -/
theorem restOfAnchor?_of_lt (hsource : tree.source.toList = before ++ after)
    (hanchor : contextAnchor? tree (endPoint before) ceiling = some anchor)
    (htext : anchor.text ≠ "") (hahead : endPoint before < anchor.start) :
    restOfAnchor? tree (endPoint before) ceiling = some anchor.text ∧
      BehindGap before after anchor := by
  obtain ⟨a, b, hcode, ha, hstart, hrow⟩ := exists_parts_of_contextAnchor? hsource hanchor htext
  rw [hstart] at hahead
  obtain ⟨gap, rfl⟩ : before <+: a :=
    -- the points are compared by the searches, and the offsets behind them by prefixes
    (Text.isPrefix_iff_not_endPoint_lt (List.prefix_append before after) ha).2
      (Point.lt_asymm hahead)
  have hgap : gap ≠ [] := by
    rintro rfl
    rw [List.append_nil] at hahead
    exact Point.lt_irrefl _ hahead
  obtain ⟨hbreak, hrelative⟩ := relativeTo_of_gap hrow
  -- on another row the point is taken to the anchor's own start, so the split is the empty one
  constructor
  · have hsplit : Text.splitAtPoint? anchor.text.toList ⟨0, 0⟩ =
        some ([], anchor.text.toList) :=
      (Text.splitAtPoint?_eq_some_iff (mt String.toList_eq_nil_iff.1 htext)).2 ⟨rfl, rfl⟩
    simp [restOfAnchor?, hanchor, hstart, hrelative, hsplit]
  · refine ⟨gap, hgap, hbreak, hstart.symm, b, ?_⟩
    simpa only [List.append_assoc, List.append_cancel_left_eq] using hcode

/-- **An anchor that is not ahead of the cursor** has a rest with which the code behind the cursor
starts. -/
theorem isPrefix_of_restOfAnchor? (hsource : tree.source.toList = before ++ after)
    (hanchor : contextAnchor? tree (endPoint before) ceiling = some anchor)
    (hnot : ¬ (anchor.text ≠ "" ∧ endPoint before < anchor.start)) {rest : String}
    (hrest : restOfAnchor? tree (endPoint before) ceiling = some rest) :
    rest.toList <+: after := by
  simp only [restOfAnchor?, hanchor, Option.bind_eq_bind, Option.bind_some,
    Option.bind_eq_some_iff, Option.pure_def, Option.some.injEq] at hrest
  obtain ⟨⟨first, behind⟩, hsplit, rfl⟩ := hrest
  rw [String.toList_ofList]
  -- a text that was split at a point is not empty
  have hne : anchor.text.toList ≠ [] := by
    intro hnil
    simp [hnil, Text.splitAtPoint?, Text.offsetAt?] at hsplit
  have htext : anchor.text ≠ "" := mt String.toList_eq_nil_iff.2 hne
  obtain ⟨a, b, hcode, ha, hstart, -⟩ := exists_parts_of_contextAnchor? hsource hanchor htext
  rw [hstart] at hsplit hnot
  -- the anchor does not start ahead of the cursor, so the split is at the cursor itself
  have hle : a <+: before :=
    (Text.isPrefix_iff_not_endPoint_lt ha (List.prefix_append before after)).2
      fun hlt => hnot ⟨htext, hlt⟩
  exact isPrefix_of_splitAtPoint? hcode hle hne hsplit

end CodeAssist.Analysis
