import CodeAssist.Proofs.Text.Offsets

/-!
# Points in a piece of a text

A piece of a text has rows and columns of its own. Read from where the piece starts, a point of the
text becomes a point of the piece (`Point.relativeTo`), and reading it back gives the point again,
unless it lies before the piece (`Point.absolute_relativeTo`). So a piece is split at such a point
exactly where the text is (`splitAtPoint?_relativeTo`), whether or not the piece starts in the
middle of a row, and whatever rows lie before it, in it and behind it.

Main statement: `split_piece_at_offset`.
-/

namespace CodeAssist.Text

variable {cs before piece front back : List Char} {start k stop : Nat}

/-- **Reading a point of a text in a piece and back.** -/
theorem Point.absolute_relativeTo {start p : Point} (h : start ≤ p) :
    absolute start (relativeTo start p) = p := by
  obtain ⟨row, column⟩ := p
  rw [Point.le_def] at h
  rcases h with hrow | ⟨hrow, hcolumn⟩
  · -- on a later row only the rows are counted from the piece
    have hlater : row - start.row ≠ 0 := Nat.sub_ne_zero_of_lt hrow
    simp only [relativeTo, absolute, hlater, if_false, Nat.add_sub_cancel' (Nat.le_of_lt hrow)]
  · simp only at hrow hcolumn
    simp only [relativeTo, absolute, hrow, Nat.sub_self, if_true, Nat.add_zero,
      Nat.add_sub_cancel' hcolumn]

/-- **A piece is split where its text is.** The point is any one that does not lie before the
piece. -/
theorem splitAtPoint?_relativeTo (hne : piece ≠ []) {p : Point} (hp : endPoint before ≤ p) :
    splitAtPoint? piece ((endPoint before).relativeTo p) = some (front, back) ↔
      piece = front ++ back ∧ endPoint (before ++ front) = p := by
  rw [splitAtPoint?_eq_some_iff hne, endPoint_append]
  refine and_congr_right fun _ => ⟨fun hend => ?_, fun hend => ?_⟩
  · rw [hend, Point.absolute_relativeTo hp]
  · rw [← hend, Point.relativeTo_absolute]

/-! ### Boundaries -/

/-- A byte offset between two characters, or at one end of the text. -/
def IsBoundary (cs : List Char) (n : Nat) : Prop :=
  ∃ a b, cs = a ++ b ∧ byteSize a = n

theorem isBoundary_iff {n : Nat} : IsBoundary cs n ↔ (splitAt? n cs).isSome = true := by
  simp only [IsBoundary, Option.isSome_iff_exists, Prod.exists, splitAt?_eq_some_iff]

instance (cs : List Char) : DecidablePred (IsBoundary cs) :=
  fun _ => decidable_of_iff _ isBoundary_iff.symm

/-- Three boundaries in their order cut a text into four parts. -/
theorem exists_parts_of_boundaries (hstart : IsBoundary cs start) (hk : IsBoundary cs k)
    (hstop : IsBoundary cs stop) (hfront : start ≤ k) (hback : k ≤ stop) :
    ∃ before front back behind, cs = before ++ (front ++ (back ++ behind)) ∧
      byteSize before = start ∧ byteSize before + byteSize front = k ∧
      byteSize before + byteSize front + byteSize back = stop := by
  obtain ⟨before, rest, hcs, rfl⟩ := hstart
  obtain ⟨upTo, rest', hcs', rfl⟩ := hk
  obtain ⟨all, behind, hcs'', rfl⟩ := hstop
  -- of two first parts the shorter one begins the longer one
  obtain ⟨front, rfl⟩ : before <+: upTo :=
    isPrefix_of_byteSize_le ⟨rest, hcs.symm⟩ ⟨rest', hcs'.symm⟩ hfront
  obtain ⟨back, rfl⟩ : before ++ front <+: all :=
    isPrefix_of_byteSize_le ⟨rest', hcs'.symm⟩ ⟨behind, hcs''.symm⟩ hback
  refine ⟨before, front, back, behind, ?_, rfl, ?_, ?_⟩
  · rw [hcs'', List.append_assoc, List.append_assoc]
  · rw [byteSize_append]
  · rw [byteSize_append, byteSize_append]

/-- **Splitting a piece at an offset of its text.** Between two boundaries of a text lies a piece,
and between them, or at one of them, a third boundary. Read from the point at which the piece
starts, the point of the third boundary is where the piece is split into what lies before that
boundary and what lies behind it. It is the only such point, among all that do not lie before the
piece. The points are those of the text: the breaks before an offset, and the bytes behind the last
of these breaks. -/
theorem split_piece_at_offset (hstart : IsBoundary cs start) (hk : IsBoundary cs k)
    (hstop : IsBoundary cs stop) (hfront : start ≤ k) (hback : k ≤ stop) (hlt : start < stop) :
    ∃ before front back, slice? 0 start cs = some before ∧ slice? start k cs = some front ∧
      slice? k stop cs = some back ∧ slice? start stop cs = some (front ++ back) ∧
      pointAt start cs = countedPoint before ∧ pointAt k cs = countedPoint (before ++ front) ∧
      splitAtPoint? (front ++ back) ((pointAt start cs).relativeTo (pointAt k cs)) =
        some (front, back) ∧
      ∀ p, pointAt start cs ≤ p →
        splitAtPoint? (front ++ back) ((pointAt start cs).relativeTo p) = some (front, back) →
          p = pointAt k cs := by
  have hle : pointAt start cs ≤ pointAt k cs := pointAt_mono hfront cs
  obtain ⟨before, front, back, behind, rfl, rfl, rfl, rfl⟩ :=
    exists_parts_of_boundaries hstart hk hstop hfront hback
  -- the piece has a byte, so it has a character
  have hne : front ++ back ≠ [] := by
    intro hnil
    obtain ⟨rfl, rfl⟩ := List.append_eq_nil_iff.1 hnil
    exact Nat.lt_irrefl _ hlt
  have hpoint : pointAt (byteSize before) (before ++ (front ++ (back ++ behind))) =
      endPoint before :=
    pointAt_byteSize_append before _
  have hpoint' : pointAt (byteSize before + byteSize front)
      (before ++ (front ++ (back ++ behind))) = endPoint (before ++ front) := by
    rw [← byteSize_append, ← List.append_assoc, pointAt_byteSize_append]
  rw [hpoint, hpoint'] at hle ⊢
  refine ⟨before, front, back, ?_, slice?_append before front _, ?_, ?_,
    endPoint_eq_countedPoint _, endPoint_eq_countedPoint _,
    (splitAtPoint?_relativeTo hne hle).2 ⟨rfl, rfl⟩,
    fun p hp hsplit => ((splitAtPoint?_relativeTo hne hp).1 hsplit).2.symm⟩
  -- the four slices come from the same four parts, joined in the four ways
  · have hslice := slice?_append [] before (front ++ (back ++ behind))
    rwa [byteSize_nil, Nat.zero_add, List.nil_append] at hslice
  · have hslice := slice?_append (before ++ front) back behind
    rwa [byteSize_append, List.append_assoc] at hslice
  · have hslice := slice?_append before (front ++ back) behind
    rwa [byteSize_append, List.append_assoc, ← Nat.add_assoc] at hslice

/-- A piece that starts in the middle of a row, behind a letter of two bytes, and is split on its
second row, behind another such letter. -/
theorem split_piece_at_offset_accented :
    let text := "é = f(\n  ü, x)\n".toList
    (IsBoundary text 5 ∧ IsBoundary text 12 ∧ IsBoundary text 16 ∧ 5 ≤ 12 ∧ 12 ≤ 16 ∧ 5 < 16) ∧
      slice? 5 16 text = some "f(\n  ü, x)".toList ∧
      pointAt 5 text = ⟨0, 5⟩ ∧ pointAt 12 text = ⟨1, 4⟩ ∧
      splitAtPoint? "f(\n  ü, x)".toList (Point.relativeTo ⟨0, 5⟩ ⟨1, 4⟩) =
        some ("f(\n  ü".toList, ", x)".toList) := by
  intro text
  have hstart : IsBoundary text 5 := by decide
  have hk : IsBoundary text 12 := by decide
  have hstop : IsBoundary text 16 := by decide
  have hpoint : pointAt 5 text = ⟨0, 5⟩ := by decide
  have hpoint' : pointAt 12 text = ⟨1, 4⟩ := by decide
  obtain ⟨before, front, back, -, hfront, hback, hpiece, -, -, hsplit, -⟩ :=
    split_piece_at_offset hstart hk hstop (by decide) (by decide) (by decide)
  -- the slices are compared with the parts that the theorem names
  obtain rfl : "f(\n  ü".toList = front := Option.some.inj ((by decide : _ = _).trans hfront)
  obtain rfl : ", x)".toList = back := Option.some.inj ((by decide : _ = _).trans hback)
  rw [hpoint, hpoint'] at hsplit
  exact ⟨⟨hstart, hk, hstop, by decide, by decide, by decide⟩, hpiece, hpoint, hpoint', hsplit⟩

end CodeAssist.Text
