import CodeAssist.Text.CommonLines
import Mathlib.Data.List.Flatten
import Mathlib.Order.Bounds.Basic

/-!
# What the weights of common lines are

The table of weights is filled row by row, and a row is changed once more while the row below it is
filled. So a cell has two values, one after the other. The first one depends on the run that ends at
its pair alone: nothing for no run, one for a single pair, and one more than its length for a longer
run (`firstWeight`). The second one depends on the pair behind it as well, and differs from the
first only for a single pair that goes on.

`weightRow` says both of a whole row. The filling keeps that the last row holds first values and the
rows above it hold second values (`getElem?_fillTable`), because a run that goes on has a first
value that is one more than the second value of the run before it (`firstWeight_succ`).

Main statement: `exists_column` — the table holds for each pair of lines what `PairWeight` says
without a table, by the longest run of equal lines that ends at the pair.
-/

namespace CodeAssist.Text

variable {α : Type} [BEq α]

/-! ### Runs of equal lines -/

section Runs

variable (source target : List α)

/-- Whether there are a source line `i` and a target line `j`, and they are equal. -/
def equalAt (i j : Nat) : Bool :=
  match source[i]?, target[j]? with
  | some s, some t => s == t
  | _, _ => false

/-- The `n` lines up to a source line and up to a target line, these two included, are equal one by
one. -/
def CommonRun (i j n : Nat) : Prop :=
  ∀ k < n, k ≤ i ∧ k ≤ j ∧ equalAt source target (i - k) (j - k) = true

/-- The length of the longest common run that ends at a pair of lines. -/
def LongestRun (i j n : Nat) : Prop :=
  IsGreatest {n | CommonRun source target i j n} n

/-- The weight of a pair of equal lines: one more than the length of the longest common run that
ends there, if this run has two lines or more. A run of one line weighs two if the next two lines
are equal as well, and one if they are not. -/
inductive PairWeight (i j : Nat) : Nat → Prop where
  | run {n : Nat} (h : 2 ≤ n) (hrun : LongestRun source target i j n) : PairWeight i j (n + 1)
  | start (hrun : LongestRun source target i j 1)
      (hnext : equalAt source target (i + 1) (j + 1) = true) : PairWeight i j 2
  | alone (hrun : LongestRun source target i j 1)
      (hnext : equalAt source target (i + 1) (j + 1) = false) : PairWeight i j 1

end Runs

variable {source target : List α} {i j n : Nat}

/-- Equal lines are there in both texts. -/
theorem exists_lines_of_equalAt (h : equalAt source target i j = true) :
    ∃ s t, source[i]? = some s ∧ target[j]? = some t ∧ (s == t) = true := by
  unfold equalAt at h
  split at h
  · next s t hs ht => exact ⟨s, t, hs, ht, h⟩
  · cases h

/-! ### Counting a run backwards -/

/-- How many lines two texts share from their first lines on. -/
def sharedLength : List α → List α → Nat
  | s :: source, t :: target => if s == t then sharedLength source target + 1 else 0
  | _, _ => 0

/-- As many lines are shared as are equal one by one. -/
theorem le_sharedLength_iff :
    n ≤ sharedLength source target ↔ ∀ k < n, equalAt source target k k = true := by
  fun_induction sharedLength source target generalizing n with
  | case1 s source t target heq ih =>
    cases n with
    | zero => simp
    | succ n =>
      -- one line is shared here, and the others are those shared by the rests
      rw [Nat.succ_le_succ_iff, ih]
      constructor
      · intro h k hk
        cases k with
        | zero => exact heq
        | succ k => exact h k (Nat.lt_of_succ_lt_succ hk)
      · intro h k hk
        exact h (k + 1) (Nat.succ_lt_succ hk)
  | case2 s source t target hne =>
    -- the first two lines differ
    cases n with
    | zero => simp
    | succ n => exact iff_of_false (Nat.not_succ_le_zero n) fun h => hne (h 0 (Nat.succ_pos n))
  | case3 source target hnil =>
    -- one of the texts has no line
    cases n with
    | zero => simp
    | succ n =>
      refine iff_of_false (Nat.not_succ_le_zero n) fun h => ?_
      obtain ⟨s, t, hs, ht, -⟩ := exists_lines_of_equalAt (h 0 (Nat.succ_pos n))
      obtain ⟨source, rfl⟩ := List.head?_eq_some_iff.1 (List.head?_eq_getElem? ▸ hs)
      obtain ⟨target, rfl⟩ := List.head?_eq_some_iff.1 (List.head?_eq_getElem? ▸ ht)
      exact hnil s source t target rfl rfl

/-- The length of the run that ends at a source line and a target line, counted backwards. -/
def runLength (source target : List α) (i j : Nat) : Nat :=
  sharedLength (source.take (i + 1)).reverse (target.take (j + 1)).reverse

omit [BEq α] in
/-- Backwards from a line of a text come the lines before it. -/
theorem getElem?_reverse_take {lines : List α} {k : Nat} (hi : i < lines.length) :
    (lines.take (i + 1)).reverse[k]? = if k ≤ i then lines[i - k]? else none := by
  have hlength : (lines.take (i + 1)).length = i + 1 := by
    rw [List.length_take, Nat.min_eq_left hi]
  by_cases hk : k ≤ i
  · rw [if_pos hk, List.getElem?_reverse (by omega), hlength, List.getElem?_take_of_lt (by omega)]
    congr 1
  · rw [if_neg hk, List.getElem?_eq_none (by rw [List.length_reverse]; omega)]

/-- The lines of a run are equal one by one. -/
theorem le_runLength_iff (hi : i < source.length) (hj : j < target.length) :
    n ≤ runLength source target i j ↔ CommonRun source target i j n := by
  rw [runLength, le_sharedLength_iff]
  refine forall₂_congr fun k hk => ?_
  unfold equalAt
  rw [getElem?_reverse_take hi, getElem?_reverse_take hj]
  -- backwards from here, the lines are those before, as far as both texts have them
  by_cases hki : k ≤ i
  · by_cases hkj : k ≤ j
    · simp [hki, hkj]
    · simp [hkj]
  · simp [hki]

/-- The longest run is the one that is counted backwards. -/
theorem longestRun_iff (hi : i < source.length) (hj : j < target.length) :
    LongestRun source target i j n ↔ n = runLength source target i j := by
  have hset : {n | CommonRun source target i j n} = Set.Iic (runLength source target i j) :=
    Set.ext fun n => (le_runLength_iff hi hj).symm
  rw [LongestRun, hset]
  exact ⟨fun h => h.unique isGreatest_Iic, fun h => h ▸ isGreatest_Iic⟩

/-! ### The values of a cell -/

/-- The value that a cell is given when its row is filled, by the run that ends at its pair. -/
def firstWeight : Nat → Nat
  | 0 => 0
  | 1 => 1
  | n + 2 => n + 3

/-- A run that goes on is given one more than the run before it has in the end. -/
theorem firstWeight_succ (n : Nat) : firstWeight (n + 1) = raise (firstWeight n) + 1 := by
  match n with
  | 0 => rfl
  | 1 => rfl
  | n + 2 => simp [firstWeight, raise]

/-- Raising never lowers a weight. -/
theorem le_raise (weight : Nat) : weight ≤ raise weight := by
  unfold raise
  split <;> omega

/-- The row of the source line that comes last in `before`, which is read backwards like the target
lines that are passed already. The pairs before those target lines are raised at which the run goes
on. -/
def weightRow (goesOn : α → Bool) (before : List α) : (passed target : List α) → List Nat
  | passed, [] => [firstWeight (sharedLength before passed)]
  | passed, t :: target =>
    let first := firstWeight (sharedLength before passed)
    (if goesOn t then raise first else first) :: weightRow goesOn before (t :: passed) target

/-- A cell of a row, by the target lines up to it. -/
theorem getElem?_weightRow (goesOn : α → Bool) (before passed : List α) {target : List α}
    {k : Nat} (hk : k ≤ target.length) :
    (weightRow goesOn before passed target)[k]? =
      let first := firstWeight (sharedLength before ((target.take k).reverse ++ passed))
      some (if (target[k]?).any goesOn then raise first else first) := by
  induction target generalizing passed k with
  | nil =>
    obtain rfl := Nat.le_zero.1 hk
    rfl
  | cons t target ih =>
    -- the first cell is the one before the row, and the others are those of the rest
    cases k with
    | zero => rfl
    | succ k => simpa [weightRow] using ih (t :: passed) (Nat.le_of_succ_le_succ hk)

/-- **Filling a row.** From first values in the row above it makes second values there, and first
values in the new row. -/
theorem fillRow_weightRow (line : α) (before passed target : List α) :
    fillRow line target (weightRow (fun _ => false) before passed target) =
      (weightRow (line == ·) before passed target,
        (weightRow (fun _ => false) (line :: before) passed target).tail) := by
  -- what was passed goes along in reverse, since runs are counted backwards
  induction target generalizing passed with
  | nil => rfl
  | cons t target ih =>
    -- the cell below to the right, which the rest of the row begins with
    have hnext : weightRow (fun _ => false) (line :: before) (t :: passed) target =
        (if line == t then raise (firstWeight (sharedLength before passed)) + 1 else 0) ::
          (weightRow (fun _ => false) (line :: before) (t :: passed) target).tail := by
      have hfirst : firstWeight (sharedLength (line :: before) (t :: passed)) =
          if line == t then raise (firstWeight (sharedLength before passed)) + 1 else 0 := by
        rw [sharedLength, ← firstWeight_succ]
        split <;> rfl
      cases target <;> simp [weightRow, hfirst]
    simp only [weightRow, fillRow, ih, List.tail_cons, Bool.false_eq_true, if_false]
    conv_rhs => rw [hnext]
    split <;> rfl

/-- **Filling the table.** The rows above the last one hold second values, the last one holds first
values. -/
theorem getElem?_fillTable (before : List α) {source target : List α} {k : Nat}
    (hk : k ≤ source.length) :
    (fillTable target source (weightRow (fun _ => false) before [] target))[k]? =
      some (weightRow (fun t => (source[k]?).any (· == t))
        ((source.take k).reverse ++ before) [] target) := by
  induction source generalizing before k with
  | nil =>
    obtain rfl := Nat.le_zero.1 hk
    rfl
  | cons line source ih =>
    -- the first cell of a row stands before all target lines, where no run ends
    have hrow : 0 :: (weightRow (fun _ => false) (line :: before) [] target).tail =
        weightRow (fun _ => false) (line :: before) [] target := by
      cases target <;> rfl
    simp only [fillTable, fillRow_weightRow, hrow]
    cases k with
    | zero => rfl
    | succ k => simpa using ih (line :: before) (Nat.le_of_succ_le_succ hk)

/-! ### The weight of a pair -/

/-- The second value of the cell of a pair. -/
def weightAt (source target : List α) (i j : Nat) : Nat :=
  let first := firstWeight (runLength source target i j)
  if equalAt source target (i + 1) (j + 1) then raise first else first

/-- Before the first source line no run has begun. -/
theorem weightRow_nil (passed target : List α) :
    weightRow (fun _ => false) [] passed target = List.replicate (target.length + 1) 0 := by
  induction target generalizing passed with
  | nil => rfl
  | cons t target ih =>
    rw [weightRow, ih, List.length_cons, List.replicate_succ (n := target.length + 1)]
    rfl

/-- A row of the table holds the weights of the pairs of its source line. -/
theorem getD_weightTable (hi : i < source.length) (hj : j < target.length) :
    ((weightTable source target)[i]?.map (·.getD j 0)) = some (weightAt source target i j) := by
  have hgoes : ((target[j + 1]?).any fun t => (source[i + 1]?).any (· == t)) =
      equalAt source target (i + 1) (j + 1) := by
    unfold equalAt
    cases source[i + 1]? <;> cases target[j + 1]? <;> rfl
  have hcell := getElem?_weightRow (fun t => (source[i + 1]?).any (· == t))
    (source.take (i + 1)).reverse [] (Nat.succ_le_of_lt hj)
  -- cells are looked up in the row, and the row in the table
  rw [List.append_nil, ← runLength, hgoes] at hcell
  rw [weightTable, ← weightRow_nil [], List.getElem?_map, List.getElem?_drop, Nat.add_comm 1 i,
    getElem?_fillTable [] (Nat.succ_le_of_lt hi), List.append_nil, Option.map_some, Option.map_some,
    List.getD_eq_getElem?_getD, List.getElem?_drop, Nat.add_comm 1 j, hcell]
  rfl

/-- There is a row for each source line. -/
theorem length_weightTable (source target : List α) :
    (weightTable source target).length = source.length := by
  have hlength : ∀ above, (fillTable target source above).length = source.length + 1 := by
    induction source with
    | nil => exact fun _ => rfl
    | cons line source ih => exact fun above => congrArg (· + 1) (ih _)
  simp [weightTable, hlength]

/-- A column of a table. -/
theorem getElem?_columnsOf {width : Nat} (hj : j < width) (rows : List (List Nat)) :
    (columnsOf width rows)[j]? = some (rows.map (·.getD j 0)) := by
  induction width generalizing j rows with
  | zero => exact absurd hj (Nat.not_lt_zero j)
  | succ width ih =>
    cases j with
    -- the first column is the rows' first cells, and the others are those of the rows' rests
    | zero =>
      refine congrArg some (List.map_congr_left fun row _ => ?_)
      cases row <;> rfl
    | succ j =>
      rw [columnsOf, List.getElem?_cons_succ, ih (Nat.lt_of_succ_lt_succ hj), List.map_map]
      refine congrArg some (List.map_congr_left fun row _ => ?_)
      cases row <;> rfl

/-- A longest run with a line ends at a pair of equal lines. -/
theorem LongestRun.equalAt (h : LongestRun source target i j n) (hn : 0 < n) :
    equalAt source target i j = true :=
  (h.1 0 hn).2.2

/-- Only pairs of equal lines have a weight. -/
theorem PairWeight.equalAt {w : Nat} (h : PairWeight source target i j w) :
    equalAt source target i j = true := by
  cases h with
  | run h hrun => exact hrun.equalAt (Nat.lt_of_lt_of_le Nat.two_pos h)
  | start hrun hnext => exact hrun.equalAt Nat.one_pos
  | alone hrun hnext => exact hrun.equalAt Nat.one_pos

/-- A pair at which a run ends has a weight. -/
theorem weightAt_ne_zero (h : 1 ≤ runLength source target i j) :
    weightAt source target i j ≠ 0 := by
  obtain ⟨n, hn⟩ := Nat.exists_eq_add_of_le' h
  have hfirst : firstWeight (runLength source target i j) ≠ 0 := by
    rw [hn, firstWeight_succ]
    exact Nat.succ_ne_zero _
  unfold weightAt
  split
  · exact fun hzero => hfirst (Nat.le_zero.1 (hzero ▸ le_raise _))
  · exact hfirst

/-- **What a cell holds in the end** is the weight of its pair, if its lines are equal. -/
theorem pairWeight_iff (hi : i < source.length) (hj : j < target.length) {w : Nat} :
    PairWeight source target i j w ↔ w = weightAt source target i j ∧ w ≠ 0 := by
  have hrun : ∀ n, LongestRun source target i j n ↔ n = runLength source target i j :=
    fun n => longestRun_iff hi hj
  unfold weightAt
  constructor
  · intro h
    -- a longest run of two or more has the weight of its length, whatever comes next
    cases h with
    | @run n h hlongest =>
      obtain ⟨n, rfl⟩ := Nat.exists_eq_add_of_le' h
      rw [← (hrun _).1 hlongest]
      simp [firstWeight, raise]
    | start hlongest hnext => simp [← (hrun 1).1 hlongest, hnext, firstWeight, raise]
    | alone hlongest hnext => simp [← (hrun 1).1 hlongest, hnext, firstWeight]
  · rintro ⟨rfl, hne⟩
    -- the length of the run decides which weight it is
    match hlength : runLength source target i j with
    | 0 => simp [hlength, firstWeight, raise] at hne
    | 1 =>
      have hlongest := (hrun 1).2 hlength.symm
      cases hnext : equalAt source target (i + 1) (j + 1) with
      | true => exact .start hlongest hnext
      | false => exact .alone hlongest hnext
    | n + 2 =>
      have hweight := PairWeight.run (Nat.le_add_left 2 n) ((hrun (n + 2)).2 hlength.symm)
      simpa [firstWeight, raise] using hweight

/-- **The column of a target line** holds the weights of its pairs, and zero elsewhere. -/
theorem exists_column (source : List α) (hj : j < target.length) :
    ∃ column, (columnsOf target.length (weightTable source target))[j]? = some column ∧
      ∀ i w, column[i]? = some w ∧ w ≠ 0 ↔ PairWeight source target i j w := by
  refine ⟨_, getElem?_columnsOf hj _, fun i w => ?_⟩
  rw [List.getElem?_map]
  by_cases hi : i < source.length
  · rw [getD_weightTable hi hj, pairWeight_iff hi hj, Option.some.injEq, eq_comm]
  · -- there is no source line, so there is no cell
    have hrow : (weightTable source target)[i]? = none := by
      rw [List.getElem?_eq_none_iff, length_weightTable]
      exact Nat.not_lt.1 hi
    rw [hrow]
    refine iff_of_false (by simp) fun h => hi ?_
    obtain ⟨s, t, hs, -⟩ := exists_lines_of_equalAt h.equalAt
    exact (List.getElem?_eq_some_iff.1 hs).1

end CodeAssist.Text
