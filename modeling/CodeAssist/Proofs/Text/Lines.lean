import CodeAssist.Text.Lines
import Mathlib.Data.List.TakeWhile

/-!
# Where the next line begins

From a position between `before` and `after` the next line begins behind the next line break, or at
the position itself, where nothing but spaces and tabs stands on its line yet (`NextLine`). This is
what `restOfLine?` finds (`restOfLine?_eq_some_iff`), and it finds none exactly in the middle of the
last line (`restOfLine?_eq_none_iff`).
-/

namespace CodeAssist.Text

variable {before after rest following : List Char}

/-! ### Positions at a line start -/

/-- Only spaces and tabs stand behind the last line break. -/
def AtLineStart (before : List Char) : Prop :=
  ∃ above indent, before = above ++ '\n' :: indent ∧ ∀ c ∈ indent, c = ' ' ∨ c = '\t'

theorem atLineStart_iff : atLineStart before = true ↔ AtLineStart before := by
  rw [atLineStart, beq_iff_eq, List.head?_eq_some_iff]
  constructor
  · rintro ⟨above, habove⟩
    -- read backwards, the indentation comes first and then the break above it
    let indent := before.reverse.takeWhile fun c => c = ' ' || c = '\t'
    have hsplit : indent ++ '\n' :: above = before.reverse := by
      rw [← habove, List.takeWhile_append_dropWhile]
    refine ⟨above.reverse, indent.reverse, ?_, fun c hc => ?_⟩
    · rw [← List.reverse_reverse before, ← hsplit, List.reverse_append, List.reverse_cons,
        List.append_assoc, List.singleton_append]
    · simpa using List.mem_takeWhile_imp (List.mem_reverse.1 hc)
  -- the indentation is passed over, so the break is what is looked at
  · rintro ⟨above, indent, rfl, hindent⟩
    refine ⟨above.reverse, ?_⟩
    rw [List.reverse_append, List.reverse_cons, List.append_assoc,
      List.dropWhile_append_of_pos fun c hc => by simpa using hindent c (List.mem_reverse.1 hc)]
    rfl

/-! ### The next line -/

/-- What stands behind a position is `rest`, and then the next line and the lines behind it. At a
line start the next line begins at once, elsewhere behind the first line break. -/
structure NextLine (before after rest following : List Char) : Prop where
  append : rest ++ following = after
  rest_eq : AtLineStart before ∧ rest = [] ∨
    ¬ AtLineStart before ∧ ∃ line, rest = line ++ ['\n'] ∧ '\n' ∉ line

/-- In front of a line break it is the first one. -/
theorem takeWhile_dropWhile_line {line : List Char} (h : '\n' ∉ line) (following : List Char) :
    (line ++ '\n' :: following).takeWhile (· ≠ '\n') = line ∧
      (line ++ '\n' :: following).dropWhile (· ≠ '\n') = '\n' :: following := by
  have hline : ∀ c ∈ line, decide (c ≠ '\n') = true := by
    intro c hc
    exact decide_eq_true (ne_of_mem_of_not_mem hc h)
  rw [List.takeWhile_append_of_pos hline, List.dropWhile_append_of_pos hline]
  simp

/-- **The rest of a line** is what stands before the next line. -/
theorem restOfLine?_eq_some_iff :
    restOfLine? before after = some (rest, following) ↔ NextLine before after rest following := by
  constructor
  · intro h
    refine ⟨append_of_restOfLine? h, ?_⟩
    unfold restOfLine? at h
    split at h
    · next hstart =>
      obtain ⟨rfl, rfl⟩ := Prod.mk.inj (Option.some.inj h)
      exact .inl ⟨atLineStart_iff.1 hstart, rfl⟩
    · next hstart =>
      refine .inr ⟨mt atLineStart_iff.2 hstart, ?_⟩
      split at h
      · next lineBreak behind hbehind =>
        obtain ⟨rfl, rfl⟩ := Prod.mk.inj (Option.some.inj h)
        -- what is not passed over first is the break
        have hhead := List.head?_dropWhile_not (fun c => decide (c ≠ '\n')) after
        rw [hbehind] at hhead
        obtain rfl : lineBreak = '\n' := by simpa using hhead
        refine ⟨_, rfl, fun hmem => ?_⟩
        have hne := List.mem_takeWhile_imp hmem
        simp at hne
      · cases h
  -- at the start of a line nothing is left of the present one
  · rintro ⟨rfl, ⟨hstart, rfl⟩ | ⟨hstart, line, rfl, hline⟩⟩
    · exact if_pos (atLineStart_iff.2 hstart)
    · obtain ⟨htake, hdrop⟩ := takeWhile_dropWhile_line hline following
      rw [List.append_assoc, List.singleton_append, restOfLine?,
        if_neg (mt atLineStart_iff.1 hstart), htake, hdrop]

/-- **There is no next line** exactly in the middle of the last one. -/
theorem restOfLine?_eq_none_iff :
    restOfLine? before after = none ↔ ¬ AtLineStart before ∧ '\n' ∉ after := by
  rw [Option.eq_none_iff_forall_ne_some]
  simp only [Prod.forall, ne_eq, restOfLine?_eq_some_iff]
  constructor
  · intro hnone
    refine ⟨fun hstart => hnone [] after ⟨rfl, .inl ⟨hstart, rfl⟩⟩, fun hmem => ?_⟩
    obtain ⟨line, following, rfl, hline⟩ := List.eq_append_cons_of_mem hmem
    -- at the start of a line, or with a break behind it, there would be a rest
    by_cases hstart : AtLineStart before
    · exact hnone [] _ ⟨rfl, .inl ⟨hstart, rfl⟩⟩
    · exact hnone (line ++ ['\n']) following ⟨by simp, .inr ⟨hstart, line, rfl, hline⟩⟩
  · rintro ⟨hstart, hmem⟩ rest following ⟨rfl, ⟨hat, -⟩ | ⟨-, line, rfl, -⟩⟩
    · exact hstart hat
    · exact hmem (by simp)

end CodeAssist.Text
