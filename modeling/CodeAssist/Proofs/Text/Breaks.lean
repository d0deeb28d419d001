import CodeAssist.Text.Lines
import Mathlib.Data.List.Basic

/-!
# Lines with their breaks

A text is cut behind its breaks into lines that a break ends and what stands behind the last break
(`Lines`). `terminated` finds these lines (`Lines.terminated_eq`), and they are the ones that stand
at a line start (`mem_terminated_append`). Some of them may be left out without any others growing
together (`Lines.filter`).

Cut before its breaks, a text has segments that begin with a break, except for the first one, which
has none (`Led`). Where the text begins with a break, the first one is empty, so any choice of the
segments joins to a text that begins with a break as well (`beginsLine_of_mem_segments`,
`beginsLine_flatten`).
-/

namespace CodeAssist.Text

variable {cs line last : List Char} {whole lines : List (List Char)}

/-! ### Lines that a break ends -/

/-- A line with the break that ends it, and no other one. -/
def IsWhole (line : List Char) : Prop :=
  ∃ body, line = body ++ ['\n'] ∧ '\n' ∉ body

/-- A text by its whole lines and what stands behind the last break. -/
structure Lines (cs : List Char) (whole : List (List Char)) (last : List Char) : Prop where
  append : whole.flatten ++ last = cs
  isWhole : ∀ line ∈ whole, IsWhole line
  unfinished : '\n' ∉ last

theorem exists_lines (cs : List Char) : ∃ whole last, Lines cs whole last := by
  induction cs with
  | nil => exact ⟨[], [], rfl, by simp, by simp⟩
  | cons c cs ih =>
    obtain ⟨whole, last, rfl, hwhole, hlast⟩ := ih
    by_cases hc : c = '\n'
    · -- a break in front is a line of its own
      subst hc
      refine ⟨['\n'] :: whole, last, rfl, ?_, hlast⟩
      exact List.forall_mem_cons.2 ⟨⟨[], rfl, List.not_mem_nil⟩, hwhole⟩
    · have hnotMem : ∀ {body : List Char}, '\n' ∉ body → '\n' ∉ c :: body :=
        fun hbody => List.not_mem_cons_of_ne_of_not_mem (Ne.symm hc) hbody
      -- any other character joins the line behind it
      cases whole with
      | nil => exact ⟨[], c :: last, rfl, by simp, hnotMem hlast⟩
      | cons line whole =>
        obtain ⟨⟨body, rfl, hbody⟩, hlines⟩ := List.forall_mem_cons.1 hwhole
        refine ⟨(c :: (body ++ ['\n'])) :: whole, last, rfl, ?_, hlast⟩
        exact List.forall_mem_cons.2 ⟨⟨c :: body, rfl, hnotMem hbody⟩, hlines⟩

theorem terminated_append (h : IsWhole line) (cs : List Char) :
    terminated (line ++ cs) = line :: terminated cs := by
  obtain ⟨body, rfl, hbody⟩ := h
  induction body with
  | nil => rfl
  | cons c body ih =>
    have hc : c ≠ '\n' := fun heq => hbody (heq ▸ List.mem_cons_self)
    have hlater : '\n' ∉ body := fun hmem => hbody (List.mem_cons_of_mem _ hmem)
    rw [List.cons_append, List.cons_append, terminated, if_neg hc, ih hlater]

/-- **Behind whole lines** the lines are counted anew. -/
theorem terminated_flatten_append (h : ∀ line ∈ whole, IsWhole line) (cs : List Char) :
    terminated (whole.flatten ++ cs) = whole ++ terminated cs := by
  induction whole with
  | nil => rfl
  | cons line whole ih =>
    obtain ⟨hline, hwhole⟩ := List.forall_mem_cons.1 h
    rw [List.flatten_cons, List.append_assoc, terminated_append hline, ih hwhole]
    rfl

theorem terminated_of_notMem (h : '\n' ∉ cs) : ∀ line ∈ terminated cs, '\n' ∉ line := by
  intro line hline hmem
  refine h ?_
  rw [← flatten_terminated cs]
  exact List.mem_flatten_of_mem hline hmem

/-- **A whole line at a line start** is one of the lines. -/
theorem mem_terminated_append {above : List Char} (habove : ∀ c ∈ above.getLast?, c = '\n')
    (h : IsWhole line) (below : List Char) : line ∈ terminated (above ++ line ++ below) := by
  obtain ⟨whole, last, hlines⟩ := exists_lines above
  -- nothing stands behind the last break above
  have hlast : last = [] := by
    rcases List.eq_nil_or_concat last with hnil | ⟨init, c, rfl⟩
    · exact hnil
    · rw [List.concat_eq_append] at hlines
      obtain rfl : c = '\n' := habove c (by simp [← hlines.append])
      exact absurd (List.mem_append_right _ List.mem_cons_self) hlines.unfinished
  -- the whole lines above are all of the text above
  have happend : whole.flatten = above := by
    rw [← hlines.append, hlast, List.append_nil]
  rw [← happend, List.append_assoc, terminated_flatten_append hlines.isWhole, terminated_append h]
  exact List.mem_append_right _ List.mem_cons_self

namespace Lines

/-- The lines of a text are the whole ones, and what stands behind them where there is any. -/
theorem terminated_eq (h : Lines cs whole last) : terminated cs = whole ++ terminated last := by
  rw [← h.append, terminated_flatten_append h.isWhole]

/-- **Lines may be left out**, and the end of the last one, too. -/
theorem filter (h : Lines cs whole last) (keep : List Char → Bool) {part : List Char}
    (hpart : part <+: last) :
    Lines ((whole.filter keep).flatten ++ part) (whole.filter keep) part where
  append := rfl
  isWhole line hline := h.isWhole line (List.mem_filter.1 hline).1
  unfinished hmem := h.unfinished (hpart.subset hmem)

/-- Whole lines end in a break. -/
theorem eq_break_of_mem_getLast? (h : Lines cs whole last) :
    ∀ c ∈ whole.flatten.getLast?, c = '\n' := by
  intro c hc
  rcases List.eq_nil_or_concat whole with rfl | ⟨init, line, rfl⟩
  · cases hc
  · obtain ⟨body, rfl, -⟩ := h.isWhole line (by simp)
    simpa using hc.symm

end Lines

/-! ### Texts that begin with a break -/

/-- A text in which nothing stands before the first break. -/
def BeginsLine (cs : List Char) : Prop :=
  ∀ c ∈ cs.head?, c = '\n'

theorem beginsLine_nil : BeginsLine [] := by
  rintro c ⟨⟩

theorem beginsLine_break (cs : List Char) : BeginsLine ('\n' :: cs) := by
  rintro c ⟨⟩
  rfl

theorem beginsLine_iff : BeginsLine cs ↔ cs = [] ∨ cs.head? = some '\n' := by
  cases cs with
  | nil => simp [beginsLine_nil]
  | cons c cs => simp [BeginsLine]

theorem BeginsLine.of_prefix {part : List Char} (h : BeginsLine cs) (hpart : part <+: cs) :
    BeginsLine part := by
  obtain ⟨rest, rfl⟩ := hpart
  intro c hc
  exact h c (List.mem_head?_append_of_mem_head? hc)

theorem BeginsLine.append (h : BeginsLine cs) (hne : cs ≠ []) (rest : List Char) :
    BeginsLine (cs ++ rest) := by
  obtain ⟨c, cs, rfl⟩ := List.exists_cons_of_ne_nil hne
  exact h

theorem beginsLine_flatten (h : ∀ line ∈ lines, BeginsLine line) : BeginsLine lines.flatten := by
  induction lines with
  | nil => exact beginsLine_nil
  | cons line lines ih =>
    obtain ⟨hline, hlines⟩ := List.forall_mem_cons.1 h
    cases line with
    | nil => exact ih hlines
    | cons c line => exact hline

/-! ### Lines that a break leads to -/

theorem firstAndLater_break (cs : List Char) :
    firstAndLater ('\n' :: cs) =
      ([], ('\n' :: (firstAndLater cs).1) :: (firstAndLater cs).2) := rfl

theorem firstAndLater_of_ne {c : Char} (hc : c ≠ '\n') (cs : List Char) :
    firstAndLater (c :: cs) = (c :: (firstAndLater cs).1, (firstAndLater cs).2) :=
  if_neg hc

/-- A line with the break that leads to it, and no other one. -/
def IsLed (line : List Char) : Prop :=
  ∃ body, line = '\n' :: body ∧ '\n' ∉ body

/-- A text by its first line and the later ones, each with the break that leads to it. -/
structure Led (cs first : List Char) (later : List (List Char)) : Prop where
  append : first ++ later.flatten = cs
  unbroken : '\n' ∉ first
  isLed : ∀ line ∈ later, IsLed line

theorem led_firstAndLater (cs : List Char) : Led cs (firstAndLater cs).1 (firstAndLater cs).2 := by
  have hbreaks : '\n' ∉ (firstAndLater cs).1 ∧ ∀ line ∈ (firstAndLater cs).2, IsLed line := by
    induction cs with
    | nil => exact ⟨List.not_mem_nil, by rintro line ⟨⟩⟩
    | cons c cs ih =>
      obtain ⟨hfirst, hlater⟩ := ih
      by_cases hc : c = '\n'
      · -- the break leads to what was the first line
        subst hc
        rw [firstAndLater_break]
        exact ⟨List.not_mem_nil, List.forall_mem_cons.2 ⟨⟨_, rfl, hfirst⟩, hlater⟩⟩
      -- any other character joins the first line
      · rw [firstAndLater_of_ne hc]
        exact ⟨List.not_mem_cons_of_ne_of_not_mem (Ne.symm hc) hfirst, hlater⟩
  exact ⟨flatten_firstAndLater cs, hbreaks.1, hbreaks.2⟩

theorem segments_break (cs : List Char) :
    segments ('\n' :: cs) = [] :: (firstAndLater ('\n' :: cs)).2 := rfl

/-- **Segments begin as the text does.** -/
theorem beginsLine_of_mem_segments (h : BeginsLine cs) (hline : line ∈ segments cs) :
    BeginsLine line := by
  cases cs with
  | nil => cases hline
  | cons c cs =>
    obtain rfl : c = '\n' := h c rfl
    rw [segments_break] at hline
    rcases List.mem_cons.1 hline with rfl | hlater
    · -- nothing stands before the break
      exact beginsLine_nil
    · obtain ⟨body, rfl, -⟩ := (led_firstAndLater _).isLed line hlater
      exact beginsLine_break body

end CodeAssist.Text
