import CodeAssist.Proofs.Text.Points
import CodeAssist.Proofs.Text.Rows

/-!
# Points are offsets

A point and a byte offset are two names of one cut of a text. The point behind a first part may be
counted character by character (`endPoint`), or as the breaks of that part and the bytes behind the
last one (`countedPoint`). The offset of a point may be counted the same way, or by going through
the rows and adding up their sizes (`offsetByRows?`). Whichever way is taken, points and offsets
determine each other, and in the same order.

Main statement: `points_are_offsets`.
-/

namespace CodeAssist.Text

variable {cs : List Char}

/-! ### Points by counting breaks -/

/-- The number of breaks, and of the bytes behind the last one. -/
def countedPoint (cs : List Char) : Point :=
  ⟨cs.count '\n', byteSize (cs.rtakeWhile (· ≠ '\n'))⟩

theorem countedPoint_append_singleton (cs : List Char) (c : Char) :
    countedPoint (cs ++ [c]) = (countedPoint cs).next c := by
  by_cases hc : c = '\n'
  · subst hc
    rw [countedPoint, List.rtakeWhile_concat_neg _ _ _ (by decide), List.count_append]
    rfl
  · rw [countedPoint, List.rtakeWhile_concat_pos _ _ _ (by simpa using hc), List.count_append,
      List.count_singleton, byteSize_append]
    simp [Point.next, hc, countedPoint]

theorem endPoint_eq_countedPoint (cs : List Char) : endPoint cs = countedPoint cs := by
  -- the text grows at its end, as the column counts what stands there
  induction cs using List.reverseRecOn with
  | nil => rfl
  | append_singleton cs c ih =>
    rw [countedPoint_append_singleton, ← ih, endPoint, List.foldl_append]
    rfl

/-! ### Offsets by adding up rows -/

/-- The offset of a column of the row that comes `n` rows later, where the first row begins at the
offset `start`. The column has to be a cut of its row. -/
def offsetFrom? (start : Nat) : (n column : Nat) → List (List Char) → Option Nat
  | _, _, [] => none
  | 0, column, row :: _ => (splitAt? column row).map fun _ => start + column
  | n + 1, column, row :: rows => offsetFrom? (start + byteSize row + 1) n column rows

/-- The byte offset of a point, from the sizes of the rows before it. -/
def offsetByRows? (cs : List Char) (p : Point) : Option Nat :=
  if cs.isEmpty then none else offsetFrom? 0 p.row p.column (rows cs)

theorem exists_rows_cons {c : Char} (hc : c ≠ '\n') (cs : List Char) :
    ∃ row later, rows cs = row :: later ∧ rows (c :: cs) = (c :: row) :: later := by
  obtain ⟨row, later, hrows⟩ := List.exists_cons_of_ne_nil (rows_ne_nil cs)
  refine ⟨row, later, hrows, ?_⟩
  rw [rows] at hrows ⊢
  rw [splitOn, if_neg hc, hrows]

section Passing

variable {c : Char} (hc : c ≠ '\n') (start : Nat)
include hc

/-- A character before the row is passed over. -/
theorem offsetFrom?_later_row (row column : Nat) (cs : List Char) :
    offsetFrom? start (row + 1) column (rows (c :: cs)) =
      offsetFrom? (start + c.utf8Size) (row + 1) column (rows cs) := by
  obtain ⟨first, later, hrows, hcons⟩ := exists_rows_cons hc cs
  rw [hcons, hrows, offsetFrom?, offsetFrom?, byteSize_cons, ← Nat.add_assoc]

/-- A character of the row takes up its bytes in columns. -/
theorem offsetFrom?_column {column : Nat} (hle : c.utf8Size ≤ column + 1) (cs : List Char) :
    offsetFrom? start 0 (column + 1) (rows (c :: cs)) =
      offsetFrom? (start + c.utf8Size) 0 (column + 1 - c.utf8Size) (rows cs) := by
  obtain ⟨first, later, hrows, hcons⟩ := exists_rows_cons hc cs
  have hsum : start + c.utf8Size + (column + 1 - c.utf8Size) = start + (column + 1) := by omega
  rw [hcons, hrows, offsetFrom?, offsetFrom?, hsum, splitAt?, if_pos hle, Option.map_map]
  rfl

/-- No column lies within a character. -/
theorem offsetFrom?_within {column : Nat} (hlt : ¬ c.utf8Size ≤ column + 1) (cs : List Char) :
    offsetFrom? start 0 (column + 1) (rows (c :: cs)) = none := by
  obtain ⟨first, later, -, hcons⟩ := exists_rows_cons hc cs
  rw [hcons, offsetFrom?, splitAt?, if_neg hlt, Option.map_none]

end Passing

/-- **Adding up rows** gives the way to the point. -/
theorem offsetFrom?_rows (start row column : Nat) (cs : List Char) :
    offsetFrom? start row column (rows cs) = (distance? row column cs).map (start + ·) := by
  -- what is passed over on the way is added to the start
  have hadd : ∀ start n : Nat,
      (fun x => start + x) ∘ (fun x => n + x) = fun x => start + n + x :=
    fun start n => funext fun x => (Nat.add_assoc start n x).symm
  -- the rows are looked at as the distance is counted, one character or one break at a time
  fun_induction distance? row column cs generalizing start with
  | case1 cs =>
    obtain ⟨first, later, hrows⟩ := List.exists_cons_of_ne_nil (rows_ne_nil cs)
    rw [hrows, offsetFrom?, splitAt?]
    rfl
  | case2 row column hnot =>
    -- the only row is empty
    cases row with
    | zero =>
      cases column with
      | zero => exact absurd rfl (hnot rfl)
      | succ column => rfl
    | succ row => rw [rows, splitOn, offsetFrom?, offsetFrom?, Option.map_none]
  | case3 column cs => rfl
  | case4 column c cs hc hle ih => rw [offsetFrom?_column hc start hle, ih, Option.map_map, hadd]
  | case5 column c cs hc hlt => rw [offsetFrom?_within hc start hlt, Option.map_none]
  | case6 row column c cs ih =>
    by_cases hc : c = '\n'
    · -- the row before the break is empty
      subst hc
      have hrows : rows ('\n' :: cs) = [] :: rows cs := rfl
      rw [if_pos rfl] at ih ⊢
      rw [hrows, offsetFrom?, ih, Option.map_map, hadd]
      rfl
    · rw [if_neg hc] at ih ⊢
      rw [offsetFrom?_later_row hc, ih, Option.map_map, hadd]

theorem offsetByRows?_eq (cs : List Char) (p : Point) : offsetByRows? cs p = offsetAt? cs p := by
  have hzero : (fun x => 0 + x) = id := funext Nat.zero_add
  rw [offsetByRows?, offsetAt?, offsetFrom?_rows, hzero, Option.map_id]
  rfl

/-! ### One order -/

/-- First parts are ordered by their sizes as by their ends. -/
theorem byteSize_le_iff_endPoint_le {a b : List Char} (ha : a <+: cs) (hb : b <+: cs) :
    byteSize a ≤ byteSize b ↔ endPoint a ≤ endPoint b := by
  rw [← not_lt (a := endPoint b), ← isPrefix_iff_not_endPoint_lt ha hb]
  constructor
  · exact isPrefix_of_byteSize_le ha hb
  · rintro ⟨rest, rfl⟩
    rw [byteSize_append]
    exact Nat.le_add_right _ _

/-- The offset of a point is the size of the first part that the point is behind. -/
theorem offsetAt?_eq_some_iff (hne : cs ≠ []) {p : Point} {k : Nat} :
    offsetAt? cs p = some k ↔ ∃ a b, cs = a ++ b ∧ byteSize a = k ∧ p = countedPoint a := by
  constructor
  · intro h
    obtain ⟨a, b, hcs, hsize, hend⟩ := exists_endPoint_of_offsetAt? h
    exact ⟨a, b, hcs, hsize, by rw [← hend, endPoint_eq_countedPoint]⟩
  · rintro ⟨a, b, rfl, rfl, rfl⟩
    rw [← endPoint_eq_countedPoint, offsetAt?_endPoint a hne]

/-- **Points are offsets.** In a text that is not empty, the points that have an offset are those
behind its first parts, each counted by breaks, and their offsets are the sizes of these parts.
Adding up rows gives the same offsets. Points are ordered as their offsets are. The point behind a
first part, however it is counted, is where the text is split into that part and the rest. -/
theorem points_are_offsets (hne : cs ≠ []) :
    (∀ p k, offsetAt? cs p = some k ↔
        ∃ a b, cs = a ++ b ∧ byteSize a = k ∧ p = countedPoint a) ∧
      (∀ p, offsetByRows? cs p = offsetAt? cs p) ∧
      (∀ p q j k, offsetAt? cs p = some j → offsetAt? cs q = some k → (p ≤ q ↔ j ≤ k)) ∧
      ∀ a b, cs = a ++ b → endPoint a = countedPoint a ∧
        endPointChecked? a = some (endPoint a) ∧ splitAtPoint? cs (endPoint a) = some (a, b) := by
  refine ⟨fun p k => offsetAt?_eq_some_iff hne, offsetByRows?_eq cs, fun p q j k hp hq => ?_,
    fun a b hcs => ?_⟩
  -- each offset is the end of a first part, and the parts are compared by their sizes
  · obtain ⟨a, a', hcs, rfl, rfl⟩ := exists_endPoint_of_offsetAt? hp
    obtain ⟨b, b', hcs', rfl, rfl⟩ := exists_endPoint_of_offsetAt? hq
    exact (byteSize_le_iff_endPoint_le ⟨a', hcs.symm⟩ ⟨b', hcs'.symm⟩).symm
  · exact ⟨endPoint_eq_countedPoint a, endPointChecked?_eq a,
      (splitAtPoint?_eq_some_iff hne).2 ⟨hcs, rfl⟩⟩

/-- A row that begins with a letter of two bytes, a row of two letters, and an empty row behind the
last break. Inside the first letter there is no offset. -/
theorem points_are_offsets_accented :
    let text := "é\nab\n".toList
    text ≠ [] ∧ offsetAt? text ⟨1, 1⟩ = some 4 ∧ offsetAt? text ⟨2, 0⟩ = some 6 ∧
      offsetAt? text ⟨0, 1⟩ = none ∧ ((⟨1, 1⟩ : Point) ≤ ⟨2, 0⟩ ↔ 4 ≤ 6) ∧
      splitAtPoint? text ⟨1, 1⟩ = some ("é\na".toList, "b\n".toList) := by
  intro text
  have hne : text ≠ [] := by decide
  obtain ⟨hoffset, -, horder, hsplit⟩ := points_are_offsets hne
  have hfirst : offsetAt? text ⟨1, 1⟩ = some 4 :=
    -- the accented character has two bytes, so the second row begins at the third one
    (hoffset _ _).2 ⟨"é\na".toList, "b\n".toList, by decide, by decide, by decide⟩
  have hsecond : offsetAt? text ⟨2, 0⟩ = some 6 :=
    (hoffset _ _).2 ⟨text, [], by decide, by decide, by decide⟩
  obtain ⟨-, -, hparts⟩ := hsplit "é\na".toList "b\n".toList (by decide)
  exact ⟨hne, hfirst, hsecond, by decide, horder _ _ _ _ hfirst hsecond, hparts⟩

end CodeAssist.Text
