import CodeAssist.Text.Blank
import Mathlib.Data.List.DropRight

/-!
# Blank and visible characters

Taking the characters of a class away from the end of a text stops at the last character outside the
class, whatever comes before that one (`dropEndWhile_append`). What trimming takes away is blank,
and what it leaves ends with a visible character (`exists_last_visible`). So a text is trimmed to
nothing exactly where all of it is blank (`trim_eq_nil_iff`).
-/

namespace CodeAssist.Text

/-- How many characters of a text are not blank. -/
def visibleCount (cs : List Char) : Nat :=
  cs.countP fun c => !isBlank c

theorem visibleCount_append (a b : List Char) :
    visibleCount (a ++ b) = visibleCount a + visibleCount b :=
  List.countP_append

/-- A visible character in front of blanks counts alone. -/
theorem visibleCount_cons_blanks {c : Char} {blanks : List Char} (hc : isBlank c = false)
    (hblanks : ∀ b ∈ blanks, isBlank b = true) : visibleCount (c :: blanks) = 1 := by
  have hnone : blanks.countP (fun b => !isBlank b) = 0 :=
    List.countP_eq_zero.2 fun b hb => by simp [hblanks b hb]
  rw [visibleCount, List.countP_cons_of_pos (by simp [hc]), hnone]

theorem visibleCount_le_length (cs : List Char) : visibleCount cs ≤ cs.length :=
  List.countP_le_length

/-! ### Ends of texts -/

section End

variable {p : Char → Bool} {a : List Char}

/-- A text is what is left of its end and what is taken away there. -/
theorem exists_dropEndWhile_append (p : Char → Bool) (cs : List Char) :
    ∃ dropped, dropEndWhile p cs ++ dropped = cs ∧ ∀ c ∈ dropped, p c = true :=
  ⟨cs.rtakeWhile p, List.rdropWhile_append_rtakeWhile, fun _ => List.mem_rtakeWhile_imp⟩

theorem eq_false_of_mem_getLast?_dropEndWhile {cs : List Char} {c : Char}
    (h : c ∈ (dropEndWhile p cs).getLast?) : p c = false := by
  obtain ⟨hne, rfl⟩ := List.mem_getLast?_eq_getLast h
  exact Bool.eq_false_iff.2 (List.rdropWhile_last_not p cs hne)

theorem dropEndWhile_eq_self (h : ∀ c ∈ a.getLast?, p c = false) : dropEndWhile p a = a := by
  refine List.rdropWhile_eq_self_iff.2 fun hne => ?_
  exact Bool.eq_false_iff.1 (h _ (List.getLast?_eq_some_getLast hne))

/-- Nothing is taken away before a character that stays. -/
theorem dropEndWhile_append (h : ∀ c ∈ a.getLast?, p c = false) (b : List Char) :
    dropEndWhile p (a ++ b) = a ++ dropEndWhile p b := by
  -- the end grows by one character, which is taken away or stops everything
  induction b using List.reverseRecOn with
  | nil =>
    rw [List.append_nil, dropEndWhile_eq_self h]
    exact (List.append_nil a).symm
  | append_singleton b c ih =>
    change List.rdropWhile p (a ++ (b ++ [c])) = a ++ List.rdropWhile p (b ++ [c])
    rw [← List.append_assoc, List.rdropWhile_concat, List.rdropWhile_concat]
    split
    · exact ih
    · exact List.append_assoc a b [c]

end End

/-! ### Blanks at the end -/

/-- A text is what trimming leaves of its end and the blanks that it takes away. -/
theorem exists_trimEnd_append (cs : List Char) :
    ∃ blanks, trimEnd cs ++ blanks = cs ∧ ∀ b ∈ blanks, isBlank b = true :=
  exists_dropEndWhile_append isBlank cs

/-- **The last visible character**, behind which only blanks come. -/
theorem exists_last_visible {cs : List Char} (h : trimEnd cs ≠ []) :
    ∃ c blanks, (trimEnd cs).dropLast ++ c :: blanks = cs ∧ isBlank c = false ∧
      ∀ b ∈ blanks, isBlank b = true := by
  obtain ⟨blanks, happend, hblanks⟩ := exists_trimEnd_append cs
  refine ⟨(trimEnd cs).getLast h, blanks, ?_, ?_, hblanks⟩
  · rw [← List.singleton_append, ← List.append_assoc, List.dropLast_append_getLast, happend]
  · exact Bool.eq_false_iff.2 (List.rdropWhile_last_not isBlank cs h)

/-- **Trimmed to nothing** is exactly what is blank. -/
theorem trim_eq_nil_iff {cs : List Char} : trim cs = [] ↔ ∀ c ∈ cs, isBlank c = true := by
  have hend : trim cs = [] ↔ ∀ c ∈ trimStart cs, isBlank c = true :=
    List.rdropWhile_eq_nil_iff
  rw [hend]
  constructor
  -- the blanks in front are blank by themselves, and those behind by the hypothesis
  · intro h c hc
    rw [← List.takeWhile_append_dropWhile (p := isBlank) (l := cs)] at hc
    rcases List.mem_append.1 hc with hfirst | hrest
    · exact List.mem_takeWhile_imp hfirst
    · exact h c hrest
  · intro h c hc
    exact h c ((List.dropWhile_suffix isBlank).subset hc)

end CodeAssist.Text
