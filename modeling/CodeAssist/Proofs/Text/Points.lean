import CodeAssist.Text.Point
import Mathlib.Data.List.Infix
import Mathlib.Data.Nat.PSub

/-!
# Cuts, points and offsets

The algebra behind byte offsets and points. A text is cut only between characters, and every
character takes up bytes, so the first parts of a text are ordered by their sizes
(`isPrefix_of_byteSize_le`), and two cuts in their order bound a slice (`slice?_of_cuts`).

Points compose. The point behind `a ++ b` is the point behind `b`, read in a piece of text that
starts behind `a` (`endPoint_append`), and `Point.relativeTo` undoes that reading
(`Point.relativeTo_absolute`). From this follow the two main statements:

* `splitAtPoint?_eq_some_iff` — a text is split at a point exactly where its first part ends at
  that point;
* `isPrefix_iff_not_endPoint_lt` — first parts are ordered by the points at which they end, so no
  two cuts share a point.
-/

namespace CodeAssist.Text

/-! ### Sizes of first parts -/

/-- Only the empty text takes up no bytes. -/
theorem byteSize_eq_zero_iff {cs : List Char} : byteSize cs = 0 ↔ cs = [] := by
  cases cs with
  | nil => simp
  | cons c cs =>
    have hc := c.utf8Size_pos
    simp only [byteSize_cons, reduceCtorEq, iff_false]
    omega

/-- **First parts are ordered by size.** -/
theorem isPrefix_of_byteSize_le {a b cs : List Char} (ha : a <+: cs) (hb : b <+: cs)
    (h : byteSize a ≤ byteSize b) : a <+: b := by
  rcases List.prefix_or_prefix_of_prefix ha hb with hab | ⟨rest, rfl⟩
  · exact hab
  · -- `b` is the shorter one, so what `a` has beyond it takes up no bytes
    rw [byteSize_append] at h
    have hrest : rest = [] := byteSize_eq_zero_iff.1 (by omega)
    rw [hrest, List.append_nil]

/-- **No two first parts of a text are of one size.** -/
theorem eq_of_byteSize_eq {a b cs : List Char} (ha : a <+: cs) (hb : b <+: cs)
    (h : byteSize a = byteSize b) : a = b := by
  have hab : a <+: b := isPrefix_of_byteSize_le ha hb (Nat.le_of_eq h)
  have hba : b <+: a := isPrefix_of_byteSize_le hb ha (Nat.le_of_eq h.symm)
  exact hab.eq_of_length_le hba.length_le

/-- Two cuts in their order bound a slice, which is what the second first part has beyond the
first one. -/
theorem slice?_of_cuts {a a' b b' cs : List Char} {start stop : Nat}
    (hstart : splitAt? start cs = some (a, b)) (hstop : splitAt? stop cs = some (a', b'))
    (h : start ≤ stop) : ∃ kept, slice? start stop cs = some kept ∧ a' = a ++ kept := by
  obtain ⟨hcs, hsize⟩ := splitAt?_eq_some_iff.1 hstart
  obtain ⟨hcs', hsize'⟩ := splitAt?_eq_some_iff.1 hstop
  -- the earlier cut is at the start of what lies before the later one
  obtain ⟨kept, rfl⟩ : a <+: a' :=
    isPrefix_of_byteSize_le ⟨b, hcs.symm⟩ ⟨b', hcs'.symm⟩ (by omega)
  refine ⟨kept, ?_, rfl⟩
  -- the rest behind the first cut starts with the slice
  have hrest : b = kept ++ b' := by
    rw [hcs', List.append_assoc] at hcs
    exact (List.append_cancel_left hcs).symm
  have hcut : splitAt? (stop - start) b = some (kept, b') := by
    rw [byteSize_append] at hsize'
    exact splitAt?_eq_some_iff.2 ⟨hrest, by omega⟩
  simp only [slice?, if_pos h, hstart, Option.bind_eq_bind, Option.bind_some, hcut]
  rfl

/-- The slice behind a first part. -/
theorem slice?_append (a kept b : List Char) :
    slice? (byteSize a) (byteSize a + byteSize kept) (a ++ (kept ++ b)) = some kept := by
  have hstop : splitAt? (byteSize a + byteSize kept) (a ++ (kept ++ b)) = some (a ++ kept, b) := by
    rw [← byteSize_append, ← List.append_assoc, splitAt?_byteSize_append]
  obtain ⟨kept', hslice, hkept⟩ :=
    slice?_of_cuts (splitAt?_byteSize_append a (kept ++ b)) hstop (Nat.le_add_right _ _)
  rw [hslice, List.append_cancel_left hkept]

/-- A slice lies between two parts of the text. -/
theorem eq_append_of_slice? {start stop : Nat} {cs kept : List Char}
    (h : slice? start stop cs = some kept) :
    ∃ a b, cs = a ++ kept ++ b ∧ byteSize a = start ∧ byteSize (a ++ kept) = stop := by
  unfold slice? at h
  split at h
  case isFalse => simp at h
  case isTrue hle =>
    simp only [Option.bind_eq_bind, Option.bind_eq_some_iff, Option.pure_def] at h
    obtain ⟨⟨a, rest⟩, hfirst, ⟨⟨m, b⟩, hsecond, hkept⟩⟩ := h
    obtain ⟨rfl, rfl⟩ := eq_append_of_splitAt? hfirst
    obtain ⟨rfl, hm⟩ := eq_append_of_splitAt? hsecond
    obtain rfl : m = kept := by simpa using hkept
    refine ⟨a, b, by rw [List.append_assoc], rfl, ?_⟩
    rw [byteSize_append]
    omega

/-! ### Composing points -/

namespace Point

/-- The point that a piece of text starting at `start` sees as `p`. -/
def absolute (start p : Point) : Point :=
  ⟨start.row + p.row, if p.row = 0 then start.column + p.column else p.column⟩

/-- **Reading a point in a piece of text and back.** -/
theorem relativeTo_absolute (start p : Point) : relativeTo start (absolute start p) = p := by
  obtain ⟨row, column⟩ := p
  by_cases hrow : row = 0 <;> simp [relativeTo, absolute, hrow]

/-- Moving behind a character commutes with reading a point in a piece of text. -/
theorem next_absolute (start p : Point) (c : Char) :
    (absolute start p).next c = absolute start (p.next c) := by
  by_cases hc : c = '\n'
  · simp [next, absolute, hc, Nat.add_assoc]
  · by_cases hrow : p.row = 0 <;> simp [next, absolute, hc, hrow, Nat.add_assoc]

/-- No point is before itself. -/
theorem lt_irrefl (p : Point) : ¬ p < p := by
  simp [lt_def]

/-- Of two points only one is before the other. -/
theorem lt_asymm {p q : Point} (h : p < q) : ¬ q < p := by
  simp only [lt_def] at h ⊢
  omega

/-- Of two points one is at or before the other, and of two different ones only one. -/
instance : LinearOrder Point where
  __ := (inferInstance : LE Point)
  __ := (inferInstance : LT Point)
  le_refl p := .inr ⟨rfl, Nat.le_refl _⟩
  le_trans p q r hpq hqr := by
    simp only [le_def] at hpq hqr ⊢
    omega
  -- two points are equal if both of their numbers are
  le_antisymm p q hpq hqp := by
    obtain ⟨row, column⟩ := p
    obtain ⟨row', column'⟩ := q
    simp only [le_def, mk.injEq] at hpq hqp ⊢
    omega
  le_total p q := by
    simp only [le_def]
    omega
  lt_iff_le_not_ge p q := by
    simp only [lt_def, le_def]
    omega
  toDecidableLE := inferInstance

/-- A point that is not before another one is not on an earlier row. -/
theorem row_le_of_le {p q : Point} (h : p ≤ q) : p.row ≤ q.row := by
  rw [le_def] at h
  omega

/-- Moving behind a character never leads back. -/
theorem le_next (p : Point) (c : Char) : p ≤ p.next c := by
  unfold next
  split
  · exact .inl (Nat.lt_succ_self p.row)
  · exact .inr ⟨rfl, Nat.le_add_right _ _⟩

/-- A piece of text ends behind its start where it has a character. -/
theorem lt_absolute_iff {start p : Point} :
    start < absolute start p ↔ 0 < p.row ∨ 0 < p.column := by
  simp only [lt_def, absolute]
  by_cases hrow : p.row = 0
  · simp [hrow]
  · have hpos : 0 < p.row := by omega
    simp [hpos]

end Point

/-- The point behind some text that starts at `p`. -/
theorem foldl_next (p : Point) (cs : List Char) :
    cs.foldl Point.next p = p.absolute (endPoint cs) := by
  -- the text grows at its end, so the last character moves the point last
  induction cs using List.reverseRecOn with
  | nil => simp [endPoint, Point.absolute]
  | append_singleton cs c ih =>
    simp only [List.foldl_append, List.foldl_cons, List.foldl_nil, ih, endPoint,
      Point.next_absolute]

/-- **Points compose**, as texts do. -/
theorem endPoint_append (a b : List Char) :
    endPoint (a ++ b) = (endPoint a).absolute (endPoint b) := by
  rw [endPoint, List.foldl_append, foldl_next]
  rfl

/-- The point behind a text, by its first character. -/
theorem endPoint_cons (c : Char) (cs : List Char) :
    endPoint (c :: cs) = (Point.next ⟨0, 0⟩ c).absolute (endPoint cs) := by
  rw [endPoint, List.foldl_cons, foldl_next]

/-- Behind a character that is no line break, its bytes count as columns. -/
theorem next_origin_of_ne {c : Char} (hc : c ≠ '\n') : Point.next ⟨0, 0⟩ c = ⟨0, c.utf8Size⟩ := by
  simp [Point.next, hc]

/-- A text with a character does not end at the origin. -/
theorem endPoint_cons_pos (c : Char) (cs : List Char) :
    0 < (endPoint (c :: cs)).row ∨ 0 < (endPoint (c :: cs)).column := by
  have hsize := c.utf8Size_pos
  rw [endPoint_cons]
  by_cases hc : c = '\n'
  · left; simp only [Point.next, hc, if_true, Point.absolute]; omega
  · rw [next_origin_of_ne hc]
    by_cases hrow : (endPoint cs).row = 0
    · right; simp only [Point.absolute, hrow, if_true]; omega
    · left; simp only [Point.absolute]; omega

/-- **A longer first part ends at a later point.** -/
theorem endPoint_lt_append (a : List Char) (c : Char) (cs : List Char) :
    endPoint a < endPoint (a ++ c :: cs) := by
  rw [endPoint_append, Point.lt_absolute_iff]
  exact endPoint_cons_pos c cs

/-- **First parts are ordered by their ends.** -/
theorem isPrefix_iff_not_endPoint_lt {a b cs : List Char} (ha : a <+: cs) (hb : b <+: cs) :
    a <+: b ↔ ¬ endPoint b < endPoint a := by
  constructor
  · rintro ⟨rest, rfl⟩
    cases rest with
    | nil =>
      rw [List.append_nil]
      exact Point.lt_irrefl _
    | cons c cs => exact Point.lt_asymm (endPoint_lt_append a c cs)
  · intro hnot
    -- of two first parts of a text one begins the other
    rcases List.prefix_or_prefix_of_prefix ha hb with hab | ⟨rest, rfl⟩
    · exact hab
    · cases rest with
      | nil => exact ⟨[], by rw [List.append_nil, List.append_nil]⟩
      | cons c cs => exact absurd (endPoint_lt_append b c cs) hnot

/-- **No two first parts of a text end at one point.** -/
theorem eq_of_endPoint_eq {a b cs : List Char} (ha : a <+: cs) (hb : b <+: cs)
    (h : endPoint a = endPoint b) : a = b := by
  have hab : a <+: b := (isPrefix_iff_not_endPoint_lt ha hb).2 (h ▸ Point.lt_irrefl _)
  have hba : b <+: a := (isPrefix_iff_not_endPoint_lt hb ha).2 (h ▸ Point.lt_irrefl _)
  exact hab.eq_of_length_le hba.length_le

/-! ### Points and offsets -/

/-- The point at the offset behind a first part is the one behind it. -/
theorem pointAt_byteSize_append (a b : List Char) :
    pointAt (byteSize a) (a ++ b) = endPoint a := by
  -- the induction needs the count at any point, since each character moves it
  suffices h : ∀ p, pointAfter p (byteSize a) (a ++ b) = a.foldl Point.next p from h ⟨0, 0⟩
  induction a with
  | nil => intro p; cases b <;> rfl
  | cons c a ih =>
    intro p
    have hc := c.utf8Size_pos
    obtain ⟨n, hn⟩ : ∃ n, c.utf8Size + byteSize a = n + 1 :=
      ⟨c.utf8Size + byteSize a - 1, by omega⟩
    have hsub : n + 1 - c.utf8Size = byteSize a := by omega
    simp only [byteSize_cons, hn, List.cons_append, pointAfter, List.foldl_cons]
    rw [if_pos (by omega), hsub, ih]

/-- Going on never leads back. -/
theorem le_pointAfter (p : Point) (n : Nat) (cs : List Char) : p ≤ pointAfter p n cs := by
  induction cs generalizing p n with
  | nil => cases n <;> exact le_refl p
  | cons c cs ih =>
    cases n with
    | zero => exact le_refl p
    | succ n =>
      rw [pointAfter]
      split
      · exact le_trans (p.le_next c) (ih _ _)
      · exact .inr ⟨rfl, Nat.le_add_right _ _⟩

theorem pointAfter_mono (p : Point) {m n : Nat} (h : m ≤ n) (cs : List Char) :
    pointAfter p m cs ≤ pointAfter p n cs := by
  induction cs generalizing p m n with
  | nil => cases m <;> cases n <;> exact le_refl p
  | cons c cs ih =>
    cases m with
    | zero => exact le_pointAfter p n (c :: cs)
    | succ m =>
      obtain ⟨k, rfl⟩ : ∃ k, n = k + 1 := ⟨n - 1, by omega⟩
      rw [pointAfter, pointAfter]
      -- the earlier offset passes the character, or it falls into it
      by_cases hm : c.utf8Size ≤ m + 1
      · rw [if_pos hm, if_pos (by omega)]
        exact ih _ (by omega)
      · rw [if_neg hm]
        split
        · -- the later offset passes the character that the earlier one falls into
          have hc : c ≠ '\n' := by
            rintro rfl
            exact hm (Nat.le_add_left 1 m)
          have hnext : (⟨p.row, p.column + (m + 1)⟩ : Point) ≤ p.next c := by
            rw [Point.next, if_neg hc]
            exact .inr ⟨rfl, Nat.add_le_add_left (Nat.le_of_not_le hm) p.column⟩
          exact le_trans hnext (le_pointAfter _ _ cs)
        · exact .inr ⟨rfl, Nat.add_le_add_left h p.column⟩

/-- **Points follow offsets.** A later offset is not at an earlier point. -/
theorem pointAt_mono {m n : Nat} (h : m ≤ n) (cs : List Char) : pointAt m cs ≤ pointAt n cs :=
  pointAfter_mono _ h cs

/-- The way to the point behind a first part is as long as that part. -/
theorem distance?_endPoint (a b : List Char) :
    distance? (endPoint a).row (endPoint a).column (a ++ b) = some (byteSize a) := by
  induction a with
  | nil => simp [endPoint, distance?]
  | cons c a ih =>
    have hsize := c.utf8Size_pos
    rw [endPoint_cons, List.cons_append, byteSize_cons]
    by_cases hc : c = '\n'
    · -- the break uses up one row
      have hrow : (1 + (endPoint a).row) = (endPoint a).row + 1 := by omega
      simp only [Point.next, hc, if_true, Point.absolute, Nat.zero_add, ite_self, hrow,
        distance?, ih, Option.map_some]
    · rw [next_origin_of_ne hc]
      by_cases hrow : (endPoint a).row = 0
      · -- on the first row the character uses up its columns
        obtain ⟨n, hn⟩ : ∃ n, c.utf8Size + (endPoint a).column = n + 1 :=
          ⟨c.utf8Size + (endPoint a).column - 1, by omega⟩
        have hsub : n + 1 - c.utf8Size = (endPoint a).column := by omega
        rw [hrow] at ih
        simp only [Point.absolute, hrow, if_true, hn, distance?, hc, if_false]
        rw [if_pos (by omega), hsub, ih, Option.map_some]
      · -- on an earlier row it is passed over
        obtain ⟨r, hr⟩ : ∃ r, (endPoint a).row = r + 1 := ⟨(endPoint a).row - 1, by omega⟩
        rw [hr] at ih
        simp only [Point.absolute, hr, Nat.zero_add, Nat.succ_ne_zero, if_false, distance?, hc, ih,
          Option.map_some]

/-- A way of `n` bytes to a point passes a first part that ends there. -/
theorem exists_endPoint_of_distance? {row column n : Nat} {cs : List Char}
    (h : distance? row column cs = some n) :
    ∃ a b, cs = a ++ b ∧ byteSize a = n ∧ endPoint a = ⟨row, column⟩ := by
  -- the counting follows the text, so its steps are those of the point
  fun_induction distance? row column cs generalizing n with
  | case1 cs => exact ⟨[], cs, rfl, by simpa using h, rfl⟩
  | case2 => simp at h
  | case3 => simp at h
  | case4 column c cs hc hle ih =>
    obtain ⟨m, hm, rfl⟩ := Option.map_eq_some_iff.1 h
    obtain ⟨a, b, rfl, rfl, hend⟩ := ih hm
    refine ⟨c :: a, b, rfl, rfl, ?_⟩
    rw [endPoint_cons, next_origin_of_ne hc, hend]
    simp only [Point.absolute, Nat.zero_add, if_true, Point.mk.injEq, true_and]
    -- the character takes as many columns as it has bytes
    omega
  | case5 => simp at h
  | case6 row column c cs ih =>
    obtain ⟨m, hm, rfl⟩ := Option.map_eq_some_iff.1 h
    obtain ⟨a, b, rfl, rfl, hend⟩ := ih hm
    refine ⟨c :: a, b, rfl, rfl, ?_⟩
    rw [endPoint_cons, hend]
    by_cases hc : c = '\n'
    · simp [Point.next, hc, Point.absolute, Nat.add_comm]
    · simp [next_origin_of_ne hc, hc, Point.absolute]

/-- The offset of a point is the size of a first part that ends there. -/
theorem exists_endPoint_of_offsetAt? {cs : List Char} {p : Point} {n : Nat}
    (h : offsetAt? cs p = some n) : ∃ a b, cs = a ++ b ∧ byteSize a = n ∧ endPoint a = p := by
  unfold offsetAt? at h
  split at h
  · cases h
  · exact exists_endPoint_of_distance? h

/-- The end of a first part has an offset, unless the text is empty. -/
theorem offsetAt?_endPoint (a : List Char) {b : List Char} (hne : a ++ b ≠ []) :
    offsetAt? (a ++ b) (endPoint a) = some (byteSize a) := by
  rw [offsetAt?, if_neg (mt List.isEmpty_iff.1 hne), distance?_endPoint]

/-- **Splitting at a point.** A text that is not empty is split at a point exactly where its first
part ends at that point. -/
theorem splitAtPoint?_eq_some_iff {cs a b : List Char} {p : Point} (hne : cs ≠ []) :
    splitAtPoint? cs p = some (a, b) ↔ cs = a ++ b ∧ endPoint a = p := by
  simp only [splitAtPoint?, Option.bind_eq_bind, Option.bind_eq_some_iff]
  constructor
  · rintro ⟨n, hn, hsplit⟩
    obtain ⟨rfl, hsize⟩ := eq_append_of_splitAt? hsplit
    obtain ⟨a', b', hcs, hsize', hend⟩ := exists_endPoint_of_offsetAt? hn
    -- both first parts have `n` bytes, so they are one
    obtain rfl : a = a' :=
      eq_of_byteSize_eq (List.prefix_append a b) ⟨b', hcs.symm⟩ (hsize.trans hsize'.symm)
    exact ⟨rfl, hend⟩
  · rintro ⟨rfl, rfl⟩
    exact ⟨byteSize a, offsetAt?_endPoint a hne, splitAt?_byteSize_append a b⟩

/-- The offset of a point is a cut of the text. -/
theorem exists_cut_of_offsetAt? {cs : List Char} {p : Point} {n : Nat}
    (h : offsetAt? cs p = some n) : ∃ parts, splitAt? n cs = some parts := by
  obtain ⟨a, b, rfl, rfl, -⟩ := exists_endPoint_of_offsetAt? h
  exact ⟨(a, b), splitAt?_byteSize_append a b⟩

/-! ### The last row by subtraction -/

/-- The byte offset of the last line break. -/
def lastBreak? : List Char → Option Nat
  | [] => none
  | c :: cs =>
    match lastBreak? cs with
    | some n => some (c.utf8Size + n)
    | none => if c = '\n' then some 0 else none

/-- The point behind a text, its column as the number of bytes behind the last line break. It has
no value where a subtraction would go below zero. -/
def endPointChecked? (cs : List Char) : Option Point :=
  match lastBreak? cs with
  | none => some ⟨cs.count '\n', byteSize cs⟩
  | some n => do
    let behind ← Nat.psub (byteSize cs) n
    let column ← Nat.psub behind 1
    return ⟨cs.count '\n', column⟩

/-- The row behind a text is its number of line breaks. -/
theorem endPoint_row (cs : List Char) : (endPoint cs).row = cs.count '\n' := by
  induction cs with
  | nil => rfl
  | cons c cs ih =>
    rw [endPoint_cons]
    by_cases hc : c = '\n'
    · simp [Point.next, hc, Point.absolute, ih, Nat.add_comm]
    · simp [next_origin_of_ne hc, hc, Point.absolute, ih]

/-- Without a line break there is one row. -/
theorem endPoint_of_lastBreak?_none {cs : List Char} (h : lastBreak? cs = none) :
    endPoint cs = ⟨0, byteSize cs⟩ := by
  induction cs with
  | nil => rfl
  | cons c cs ih =>
    simp only [lastBreak?] at h
    split at h
    · simp at h
    · rename_i hnone
      -- there is no break at all, and so none in front
      have hc : c ≠ '\n' := by rintro rfl; simp at h
      rw [endPoint_cons, next_origin_of_ne hc, ih hnone]
      simp [Point.absolute]

/-- Behind the last line break come the bytes of the last row. -/
theorem endPoint_column_of_lastBreak? {cs : List Char} {n : Nat} (h : lastBreak? cs = some n) :
    n + 1 + (endPoint cs).column = byteSize cs ∧ 0 < (endPoint cs).row := by
  induction cs generalizing n with
  | nil => simp [lastBreak?] at h
  | cons c cs ih =>
    simp only [lastBreak?] at h
    rw [endPoint_cons, byteSize_cons]
    split at h
    · -- a later break decides the column alone
      rename_i m hm
      obtain ⟨hcolumn, hrow⟩ := ih hm
      obtain rfl : c.utf8Size + m = n := by simpa using h
      have hne : (endPoint cs).row ≠ 0 := by omega
      simp only [Point.absolute, hne, if_false]
      omega
    -- no break comes later, so this one decides if it is one
    · rename_i hnone
      split at h
      · rename_i hc
        obtain rfl : 0 = n := by simpa using h
        have hbreak : ('\n' : Char).utf8Size = 1 := by decide
        simp [endPoint_of_lastBreak?_none hnone, Point.next, hc, Point.absolute, hbreak]
      · simp at h

/-- **The column by subtraction** is the one by counting, and no subtraction goes below zero. -/
theorem endPointChecked?_eq (cs : List Char) : endPointChecked? cs = some (endPoint cs) := by
  unfold endPointChecked?
  rw [← endPoint_row]
  cases hbreak : lastBreak? cs with
  | none => simp [endPoint_of_lastBreak?_none hbreak]
  | some n =>
    obtain ⟨hcolumn, -⟩ := endPoint_column_of_lastBreak? hbreak
    -- the break is passed over on the way to the column
    have hbehind : Nat.psub (byteSize cs) n = some (1 + (endPoint cs).column) :=
      Nat.psub_eq_some.2 (by omega)
    have hone : Nat.psub (1 + (endPoint cs).column) 1 = some (endPoint cs).column :=
      Nat.psub_eq_some.2 (by omega)
    simp only [hbehind, hone, Option.bind_eq_bind, Option.bind_some]
    rfl

end CodeAssist.Text
