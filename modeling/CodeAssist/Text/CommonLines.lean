/-!
# Lines that two texts share

`commonLines source target` finds the target lines that also occur in the source and groups those
that follow each other in both.

Every pair of equal lines has a weight. The weights are found in a table that has a row for each
source line and a cell for each target line, filled row by row. The cell of a pair of equal lines is
one more than the cell of the pair before it, the one up and to the left. A pair that stood alone so
far is first raised from one to two there, in the row above, which was filled already. So longer
runs outrank shorter ones, and the start of a run outranks an isolated line.

A target line is matched with the first source line of greatest weight.
-/

namespace CodeAssist.Text

variable {α : Type} [BEq α]

/-! ### The table -/

/-- The weight of a pair, once the pair behind it is one of equal lines, too. -/
def raise (weight : Nat) : Nat :=
  if weight = 1 then 2 else weight

/-- Fills the row of the source line `line` from the row above it. The result is the row above, with
the pairs raised that go on in the new row, and the new row without its first cell. -/
def fillRow (line : α) : (target : List α) → (above : List Nat) → List Nat × List Nat
  | other :: target, cell :: above =>
    let (above, row) := fillRow line target above
    if line == other then (raise cell :: above, (raise cell + 1) :: row)
    else (cell :: above, 0 :: row)
  -- The last cell of a row has none below it to the right.
  | _, above => (above, [])

/-- The row `above` and the rows of the source lines below it. -/
def fillTable (target : List α) : (source : List α) → (above : List Nat) → List (List Nat)
  | [], above => [above]
  | line :: source, above =>
    let (above, row) := fillRow line target above
    above :: fillTable target source (0 :: row)

/-- The weights of all pairs of lines, one row for each source line. -/
def weightTable (source target : List α) : List (List Nat) :=
  -- A row and a column of zeros stand before the first lines.
  let border := List.replicate (target.length + 1) 0
  ((fillTable target source border).drop 1).map (·.drop 1)

/-! ### Matches -/

/-- The first columns of a table, as many as `width` says. -/
def columnsOf : (width : Nat) → (rows : List (List Nat)) → List (List Nat)
  | 0, _ => []
  | width + 1, rows => rows.map (·.headD 0) :: columnsOf width (rows.map List.tail)

/-- The first position of the greatest weight, with that weight; none where all weights are
zero. -/
def heaviest? : List Nat → Option (Nat × Nat)
  | [] => none
  | w :: ws =>
    match heaviest? ws with
    -- On a tie the earlier position wins.
    | some (i, best) => if best ≤ w then some (0, w) else some (i + 1, best)
    | none => if w = 0 then none else some (0, w)

/-- The target lines that occur in the source, each with its source position. -/
def matchedLines (source target : List α) : List (Nat × Nat) :=
  let columns := columnsOf target.length (weightTable source target)
  columns.zipIdx.filterMap fun (column, line) =>
    (heaviest? column).map fun (position, _) => (line, position)

/-- The positions of the target lines that occur in the source. Two neighbours are in one group
when the later one's source position is the next one. -/
def commonLines (source target : List α) : List (List Nat) :=
  ((matchedLines source target).splitBy fun a b => b.2 == a.2 + 1).map (·.map Prod.fst)

end CodeAssist.Text
