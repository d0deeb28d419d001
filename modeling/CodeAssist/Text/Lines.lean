import CodeAssist.Text.Bytes

/-!
# Lines

Three views of the lines of a text. `splitOn` cuts at every separator and drops it,
`terminated` keeps each line break at the end of its line, and `segments` keeps it at the start of
the line that it leads to. The last two lose nothing: their pieces concatenate to the text
(`flatten_terminated`, `flatten_segments`).
-/

namespace CodeAssist.Text

/-! ### Pieces without their separators -/

/-- The pieces between the separators, one more than there are separators. -/
def splitOn (separator : Char) : List Char → List (List Char)
  | [] => [[]]
  | c :: cs =>
    if c = separator then [] :: splitOn separator cs
    else match splitOn separator cs with
      -- There is always a piece, so this case does not arise.
      | [] => [[c]]
      | piece :: rest => (c :: piece) :: rest

/-- The lines of a text, without their breaks. -/
def rows (cs : List Char) : List (List Char) :=
  splitOn '\n' cs

/-! ### Lines with the break that ends them -/

/-- The lines of a text, each with the break that ends it. -/
def terminated : List Char → List (List Char)
  | [] => []
  | c :: cs =>
    if c = '\n' then ['\n'] :: terminated cs
    else match terminated cs with
      | [] => [[c]]
      | line :: rest => (c :: line) :: rest

/-- **The terminated lines lose nothing.** -/
theorem flatten_terminated (cs : List Char) : (terminated cs).flatten = cs := by
  fun_induction terminated cs with
  | case1 => rfl
  | case2 cs ih => simp [ih]
  | case3 c cs hc hnil ih => simp_all
  | case4 c cs hc line rest hrest ih => simp_all

/-! ### Lines with the break that leads to them -/

/-- The first line of a text, and the later ones each with the break that leads to it. -/
def firstAndLater : List Char → List Char × List (List Char)
  | [] => ([], [])
  | c :: cs =>
    let (first, later) := firstAndLater cs
    if c = '\n' then ([], ('\n' :: first) :: later) else (c :: first, later)

/-- The lines of a text, each but the first with the break that leads to it. A text that ends in a
break has the break alone as its last line, and the empty text has no line. -/
def segments (cs : List Char) : List (List Char) :=
  if cs.isEmpty then []
  else
    let (first, later) := firstAndLater cs
    first :: later

/-- The first line and the later ones join to the text. -/
theorem flatten_firstAndLater (cs : List Char) :
    (firstAndLater cs).1 ++ (firstAndLater cs).2.flatten = cs := by
  induction cs with
  | nil => rfl
  | cons c cs ih =>
    by_cases hc : c = '\n' <;> simp [firstAndLater, hc, ih]

/-- **The segments lose nothing.** -/
theorem flatten_segments (cs : List Char) : (segments cs).flatten = cs := by
  cases cs with
  | nil => rfl
  | cons c cs => simpa [segments] using flatten_firstAndLater (c :: cs)

/-! ### Line breaks around a position -/

/-- Whether only spaces and tabs stand between the last line break and the end of `before`. -/
def atLineStart (before : List Char) : Bool :=
  (before.reverse.dropWhile fun c => c = ' ' || c = '\t').head? == some '\n'

/-- The rest of the current line, with its break, and what follows, for a position between
`before` and `after`. The rest is empty where the position is already at a line start; there is
none where the current line is the last one. -/
def restOfLine? (before after : List Char) : Option (List Char × List Char) :=
  -- Where nothing stands on the line yet, the position begins a line of its own.
  if atLineStart before then some ([], after)
  else match after.dropWhile (· ≠ '\n') with
    | lineBreak :: following => some (after.takeWhile (· ≠ '\n') ++ [lineBreak], following)
    | [] => none

/-- The rest of the line and what follows it join to what stands behind the position. -/
theorem append_of_restOfLine? {before after rest following : List Char}
    (h : restOfLine? before after = some (rest, following)) : rest ++ following = after := by
  unfold restOfLine? at h
  split at h
  · -- At a line start nothing is split off.
    simp_all
  · have hsplit := List.takeWhile_append_dropWhile (p := (· ≠ '\n')) (l := after)
    split at h
    · rename_i b f heq
      simp only [Option.some.injEq, Prod.mk.injEq] at h
      rw [← h.1, ← h.2, List.append_assoc, List.singleton_append, ← heq, hsplit]
    · simp at h

/-- The byte offset at which the line after the offset `start` begins: `start` itself where only
spaces and tabs precede it on its line. -/
def lineStartFrom? (text : List Char) (start : Nat) : Option Nat := do
  let parts ← splitAt? start text
  let rest ← restOfLine? parts.1 parts.2
  return start + byteSize rest.1

end CodeAssist.Text
