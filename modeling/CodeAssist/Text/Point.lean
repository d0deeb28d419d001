import CodeAssist.Text.Blank
import CodeAssist.Text.Bytes

/-!
# Points

A point names a position in text by its row and by its column on that row, counted in bytes.
`pointAt` reads the point off a byte offset, `offsetAt?` the byte offset off a point; a point that
lies behind the end of its row or inside a character has no offset. Points are ordered row by row.
-/

namespace CodeAssist.Text

/-- A zero-based row and a zero-based column in bytes. -/
structure Point where
  row : Nat
  column : Nat
deriving DecidableEq, Repr, Inhabited

namespace Point

/-! ### Order -/

/-- Points are ordered by row, and by column on one row. -/
instance : LE Point where
  le p q := p.row < q.row ∨ p.row = q.row ∧ p.column ≤ q.column

instance : LT Point where
  lt p q := p.row < q.row ∨ p.row = q.row ∧ p.column < q.column

/-- One point is at or before another: on an earlier row, or not behind it on the same one. -/
theorem le_def {p q : Point} :
    p ≤ q ↔ p.row < q.row ∨ p.row = q.row ∧ p.column ≤ q.column := Iff.rfl

/-- One point is before another: on an earlier row, or before it on the same one. -/
theorem lt_def {p q : Point} :
    p < q ↔ p.row < q.row ∨ p.row = q.row ∧ p.column < q.column := Iff.rfl

instance (p q : Point) : Decidable (p ≤ q) :=
  decidable_of_iff _ le_def.symm

instance (p q : Point) : Decidable (p < q) :=
  decidable_of_iff _ lt_def.symm

/-! ### Moving -/

/-- The point behind a character that starts at `p`. -/
def next (p : Point) (c : Char) : Point :=
  if c = '\n' then ⟨p.row + 1, 0⟩ else ⟨p.row, p.column + c.utf8Size⟩

/-- `p` as seen from a piece of text that starts at `start`. Only the first row of the piece is
shifted sideways. -/
def relativeTo (start p : Point) : Point :=
  let row := p.row - start.row
  ⟨row, if row = 0 then p.column - start.column else p.column⟩

end Point

/-! ### Points and offsets -/

/-- The point behind the whole text. -/
def endPoint (cs : List Char) : Point :=
  cs.foldl Point.next ⟨0, 0⟩

/-- The point `n` bytes behind a point `p` at which the text starts. -/
def pointAfter (p : Point) : Nat → List Char → Point
  | 0, _ => p
  | _ + 1, [] => p
  | n + 1, c :: cs =>
    if c.utf8Size ≤ n + 1 then pointAfter (p.next c) (n + 1 - c.utf8Size) cs
    -- The offset lies inside the character, which is no line break.
    else ⟨p.row, p.column + (n + 1)⟩

/-- The point at the byte offset `n`. -/
def pointAt (n : Nat) (cs : List Char) : Point :=
  pointAfter ⟨0, 0⟩ n cs

/-- Bytes from here to the given column of the row that lies `row` breaks ahead. -/
def distance? : Nat → Nat → List Char → Option Nat
  | 0, 0, _ => some 0
  | _, _, [] => none
  | 0, column + 1, c :: cs =>
    -- A row ends before its line break, and no column lies inside a character.
    if c = '\n' then none
    else if c.utf8Size ≤ column + 1 then
      (distance? 0 (column + 1 - c.utf8Size) cs).map (c.utf8Size + ·)
    else none
  | row + 1, column, c :: cs =>
    (distance? (if c = '\n' then row else row + 1) column cs).map (c.utf8Size + ·)

/-- The byte offset of a point. The empty text has no points. -/
def offsetAt? (cs : List Char) (p : Point) : Option Nat :=
  if cs.isEmpty then none else distance? p.row p.column cs

/-- The parts of a text before and behind a point. -/
def splitAtPoint? (cs : List Char) (p : Point) : Option (List Char × List Char) := do
  let offset ← offsetAt? cs p
  splitAt? offset cs

/-! ### The first visible character -/

/-- The point of the first character that begins at or behind the byte offset `start` and is not
blank, in a text that begins at the offset `offset` and the point `p`. -/
def visibleFrom? (start offset : Nat) (p : Point) : List Char → Option Point
  | [] => none
  | c :: cs =>
    if start ≤ offset && !isBlank c then some p
    else visibleFrom? start (offset + c.utf8Size) (p.next c) cs

/-- The point of the first character that begins at or behind the byte offset `start` and is not
blank. -/
def firstVisiblePoint? (cs : List Char) (start : Nat) : Option Point :=
  visibleFrom? start 0 ⟨0, 0⟩ cs

end CodeAssist.Text
