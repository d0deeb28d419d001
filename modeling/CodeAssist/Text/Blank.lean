/-!
# Blank characters and trimming

`isBlank` is the Unicode property White_Space. Trimming removes blanks, or any other class of
characters, from the ends of a text.
-/

namespace CodeAssist.Text

/-! ### The class -/

/-- The 25 characters of the Unicode property White_Space. -/
def isBlank (c : Char) : Bool :=
  let n := c.toNat
  -- the controls from tab to carriage return, the blank, next line, and the no-break blank
  (9 ≤ n && n ≤ 13) || n == 0x20 || n == 0x85 || n == 0xA0 ||
  -- the ogham mark and the row of typographic widths
  n == 0x1680 || (0x2000 ≤ n && n ≤ 0x200A) ||
  -- the separators of lines and paragraphs, and the blanks of mathematics and ideographs
  n == 0x2028 || n == 0x2029 || n == 0x202F || n == 0x205F || n == 0x3000

/-- **White space is blank.** Blanks extend the core library's class of white space. -/
theorem isBlank_of_isWhitespace {c : Char} (h : c.isWhitespace = true) : isBlank c = true := by
  simp only [Char.isWhitespace, Bool.or_eq_true, decide_eq_true_eq] at h
  rcases h with ((rfl | rfl) | rfl) | rfl <;> decide

/-! ### Trimming -/

/-- Removes the characters of a class from the end. -/
def dropEndWhile (p : Char → Bool) (cs : List Char) : List Char :=
  (cs.reverse.dropWhile p).reverse

/-- What is left after removing from the end is a first part of the text. -/
theorem dropEndWhile_prefix (p : Char → Bool) (cs : List Char) : dropEndWhile p cs <+: cs := by
  have h := List.dropWhile_suffix (l := cs.reverse) p
  simpa [dropEndWhile] using List.reverse_prefix.2 h

/-- Removes the blanks at the start. -/
def trimStart (cs : List Char) : List Char :=
  cs.dropWhile isBlank

/-- Removes the blanks at the end. -/
def trimEnd (cs : List Char) : List Char :=
  dropEndWhile isBlank cs

/-- Removes the blanks at both ends. -/
def trim (cs : List Char) : List Char :=
  trimEnd (trimStart cs)

end CodeAssist.Text
