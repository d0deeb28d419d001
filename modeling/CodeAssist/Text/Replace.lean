/-!
# Occurrences and replacement

`occursIn` looks for a text inside another one, and `replaceAll` exchanges all its occurrences,
from left to right and without overlap.

Main statements: `occursIn_iff` identifies the search with the relation `<:+:` on lists, and
`replaceAll_of_not_occursIn` says that a text without the pattern stays as it is.
-/

namespace CodeAssist.Text

/-! ### Occurrences -/

/-- Whether `needle` occurs in a text. -/
def occursIn (needle : List Char) : List Char → Bool
  | [] => needle.isEmpty
  | c :: cs => needle.isPrefixOf (c :: cs) || occursIn needle cs

/-- **The search decides the infix relation.** -/
theorem occursIn_iff {needle cs : List Char} : occursIn needle cs = true ↔ needle <:+: cs := by
  induction cs with
  | nil => simp [occursIn]
  | cons c cs ih => simp [occursIn, ih, List.infix_cons_iff]

/-! ### Replacement -/

/-- Exchanges the occurrences of `pattern` behind the next `skip` characters, which are passed
over. -/
def replaceFrom (pattern replacement : List Char) : Nat → List Char → List Char
  | _, [] => []
  | skip + 1, _ :: cs => replaceFrom pattern replacement skip cs
  | 0, c :: cs =>
    if pattern.isPrefixOf (c :: cs) then
      -- The first character is used up here, and the rest of the occurrence is passed over.
      replacement ++ replaceFrom pattern replacement (pattern.length - 1) cs
    else c :: replaceFrom pattern replacement 0 cs

/-- Exchanges every occurrence of a non-empty `pattern`, searching behind each one for the next. -/
def replaceAll (pattern replacement cs : List Char) : List Char :=
  replaceFrom pattern replacement 0 cs

/-- A text in which the pattern does not occur stays as it is. -/
theorem replaceAll_of_not_occursIn {pattern replacement cs : List Char}
    (h : occursIn pattern cs = false) : replaceAll pattern replacement cs = cs := by
  unfold replaceAll
  induction cs with
  | nil => rfl
  | cons c cs ih =>
    simp only [occursIn, Bool.or_eq_false_iff] at h
    simp [replaceFrom, h.1, ih h.2]

end CodeAssist.Text
