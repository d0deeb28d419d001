import CodeAssist.Proofs.Text.Breaks

/-!
# Segments and the breaks that lead to them

Each break of a text leads to one segment, and the first segment has none that leads to it (`Led`).
This determines the segments (`Led.segments_eq`). So it does not matter in which way they are
made, as long as nothing is lost: they may also be made from the lines that breaks end, where each
break moves on to the next line, and a break at the very end to a line of its own (`moveBreaks`).

Main statement: `segments_by_breaks`.
-/

namespace CodeAssist.Text

variable {cs first line last : List Char} {later whole : List (List Char)}

/-! ### Segments of a text -/

/-- What stands before the first break belongs to the first line. -/
theorem firstAndLater_append (h : '\n' ∉ line) (cs : List Char) :
    firstAndLater (line ++ cs) = (line ++ (firstAndLater cs).1, (firstAndLater cs).2) := by
  induction line with
  | nil => rfl
  | cons c line ih =>
    obtain ⟨hc, hline⟩ := not_or.1 (mt List.mem_cons.2 h)
    rw [List.cons_append, firstAndLater_of_ne (Ne.symm hc), ih hline, List.cons_append]

theorem firstAndLater_flatten (h : ∀ line ∈ later, IsLed line) :
    firstAndLater later.flatten = ([], later) := by
  induction later with
  | nil => rfl
  | cons line later ih =>
    obtain ⟨⟨body, rfl, hbody⟩, hlater⟩ := List.forall_mem_cons.1 h
    rw [List.flatten_cons, List.cons_append, firstAndLater_break, firstAndLater_append hbody,
      ih hlater, List.append_nil]

theorem segments_of_ne_nil (hne : cs ≠ []) :
    segments cs = (firstAndLater cs).1 :: (firstAndLater cs).2 :=
  if_neg (mt List.isEmpty_iff.1 hne)

namespace Led

/-- **A text has no other segments.** -/
theorem segments_eq (h : Led cs first later) (hne : cs ≠ []) : segments cs = first :: later := by
  rw [segments_of_ne_nil hne, ← h.append, firstAndLater_append h.unbroken,
    firstAndLater_flatten h.isLed, List.append_nil]

/-- **Each break leads to one segment.** -/
theorem length_later (h : Led cs first later) : later.length = cs.count '\n' := by
  obtain ⟨rfl, hfirst, hlater⟩ := h
  rw [List.count_append, List.count_eq_zero.2 hfirst, Nat.zero_add]
  induction later with
  | nil => rfl
  | cons line later ih =>
    obtain ⟨⟨body, rfl, hbody⟩, hrest⟩ := List.forall_mem_cons.1 hlater
    rw [List.flatten_cons, List.count_append, List.count_cons_self, List.count_eq_zero.2 hbody,
      ← ih hrest, List.length_cons, Nat.zero_add, Nat.add_comm]

end Led

/-- The segments of a text are what breaks lead to, where there is any text. -/
theorem segments_eq_cons_iff : segments cs = first :: later ↔ cs ≠ [] ∧ Led cs first later := by
  constructor
  · intro h
    have hne : cs ≠ [] := by
      rintro rfl
      cases h
    rw [segments_of_ne_nil hne] at h
    obtain ⟨rfl, rfl⟩ := List.cons.inj h
    exact ⟨hne, led_firstAndLater cs⟩
  · rintro ⟨hne, h⟩
    exact h.segments_eq hne

/-! ### Breaks moved from the end of a line to the next one -/

/-- A line without the break that ends it, where one does. -/
def withoutBreak (line : List Char) : List Char :=
  if line.getLast? = some '\n' then line.dropLast else line

/-- The lines of a text, each but the first with the break that ended the line before it. -/
def moveBreaks (cs : List Char) : List (List Char) :=
  match terminated cs with
  | [] => []
  | line :: later =>
    let moved := withoutBreak line :: later.map fun next => '\n' :: withoutBreak next
    -- behind a break at the very end there is no line yet for it to lead to
    if ((line :: later).getLast?.bind List.getLast?) = some '\n' then moved ++ [['\n']] else moved

theorem withoutBreak_append (body : List Char) : withoutBreak (body ++ ['\n']) = body := by
  rw [withoutBreak, List.getLast?_concat, if_pos rfl, List.dropLast_concat]

theorem withoutBreak_eq_self (h : '\n' ∉ line) : withoutBreak line = line :=
  if_neg fun hlast => h (List.mem_of_getLast? hlast)

/-- Whole lines, the next of which takes over the break of each. -/
theorem flatten_moved (h : ∀ line ∈ whole, IsWhole line) (last : List Char) :
    (whole.map fun next => '\n' :: withoutBreak next).flatten ++ '\n' :: last =
      '\n' :: (whole.flatten ++ last) := by
  induction whole with
  | nil => rfl
  | cons line whole ih =>
    obtain ⟨⟨body, rfl, -⟩, hwhole⟩ := List.forall_mem_cons.1 h
    rw [List.map_cons, List.flatten_cons, List.append_assoc, ih hwhole, withoutBreak_append,
      List.flatten_cons, List.cons_append, List.append_assoc, List.append_assoc]
    rfl

theorem terminated_singleton (hne : line ≠ []) (h : '\n' ∉ line) : terminated line = [line] := by
  induction line with
  | nil => exact absurd rfl hne
  | cons c line ih =>
    obtain ⟨hc, hline⟩ := not_or.1 (mt List.mem_cons.2 h)
    rw [terminated, if_neg (Ne.symm hc)]
    cases line with
    | nil => rfl
    | cons d line => rw [ih (List.cons_ne_nil _ _) hline]

/-- What the breaks are moved to, behind a first line that a break ends. -/
theorem moveBreaks_of_whole {body : List Char}
    (h : Lines cs ((body ++ ['\n']) :: whole) last) :
    moveBreaks cs =
      body :: ((whole.map fun next => '\n' :: withoutBreak next) ++ ['\n' :: last]) := by
  have hcs : terminated cs = (body ++ ['\n']) :: (whole ++ terminated last) := h.terminated_eq
  rw [moveBreaks, hcs]
  by_cases hlast : last = []
  · -- the text ends in a break, which leads to an empty line
    subst hlast
    have hends : ((((body ++ ['\n']) :: whole).getLast?).bind List.getLast?) = some '\n' := by
      obtain ⟨body', hbody', -⟩ := h.isWhole _ (List.getLast_mem (List.cons_ne_nil _ whole))
      rw [List.getLast?_eq_some_getLast (List.cons_ne_nil _ whole), Option.bind_some, hbody',
        List.getLast?_concat]
    simp only [terminated, List.append_nil, hends, if_true, withoutBreak_append, List.cons_append]
  -- the last line is unfinished and is led by the break before it
  · have hends : (((body ++ ['\n']) :: (whole ++ [last])).getLast?.bind List.getLast?) ≠
        some '\n' := by
      rw [← List.cons_append, List.getLast?_concat, Option.bind_some]
      exact fun hmem => h.unfinished (List.mem_of_getLast? hmem)
    simp only [terminated_singleton hlast h.unfinished, hends, if_false, withoutBreak_append,
      List.map_append, List.map_cons, List.map_nil, withoutBreak_eq_self h.unfinished]

/-- **Breaks may be moved.** -/
theorem moveBreaks_eq (cs : List Char) : moveBreaks cs = segments cs := by
  obtain ⟨whole, last, h⟩ := exists_lines cs
  cases whole with
  | nil =>
    -- without a break there is one line, unless there is no text
    obtain rfl : last = cs := h.append
    by_cases hne : last = []
    · subst hne
      rfl
    -- the one line is the whole text and has no break at its end
    · have hled : Led last last [] := ⟨List.append_nil last, h.unfinished, by rintro line ⟨⟩⟩
      have hends : last.getLast? ≠ some '\n' := fun hmem =>
        h.unfinished (List.mem_of_getLast? hmem)
      rw [moveBreaks, terminated_singleton hne h.unfinished, hled.segments_eq hne]
      simp [hends, withoutBreak_eq_self h.unfinished]
  | cons line whole =>
    obtain ⟨⟨body, rfl, hbody⟩, hwhole⟩ := List.forall_mem_cons.1 h.isWhole
    have hne : cs ≠ [] := by
      rw [← h.append]
      simp
    -- each break moves from the end of its line to the start of the next one
    have hled : Led cs body
        ((whole.map fun next => '\n' :: withoutBreak next) ++ ['\n' :: last]) := by
      refine ⟨?_, hbody, fun line hline => ?_⟩
      · rw [List.flatten_append, List.flatten_singleton, flatten_moved hwhole, ← h.append,
          List.flatten_cons, List.append_assoc, List.append_assoc]
        rfl
      · rcases List.mem_append.1 hline with hmoved | hline
        · obtain ⟨next, hnext, rfl⟩ := List.mem_map.1 hmoved
          obtain ⟨body', rfl, hbody'⟩ := hwhole next hnext
          exact ⟨body', by rw [withoutBreak_append], hbody'⟩
        · exact ⟨last, List.mem_singleton.1 hline, h.unfinished⟩
    rw [moveBreaks_of_whole h, hled.segments_eq hne]

/-- **Segments by their breaks.** The segments of a text join to the text. Where there is any text,
the first one has no break, each of the later ones has one break, with which it begins, and no other
pieces of the text are like that. So there is one segment more than there are breaks. Moving the
break from the end of each line to the next line makes the same segments. -/
theorem segments_by_breaks (cs : List Char) :
    (segments cs).flatten = cs ∧
      (∀ first later, segments cs = first :: later ↔ cs ≠ [] ∧ first ++ later.flatten = cs ∧
        '\n' ∉ first ∧ ∀ line ∈ later, ∃ body, line = '\n' :: body ∧ '\n' ∉ body) ∧
      (segments cs).length = (if cs = [] then 0 else cs.count '\n' + 1) ∧
      moveBreaks cs = segments cs := by
  refine ⟨flatten_segments cs, fun first later => ?_, ?_, moveBreaks_eq cs⟩
  · rw [segments_eq_cons_iff]
    refine and_congr_right fun _ => ⟨?_, ?_⟩
    · rintro ⟨happend, hfirst, hlater⟩
      exact ⟨happend, hfirst, hlater⟩
    · rintro ⟨happend, hfirst, hlater⟩
      exact ⟨happend, hfirst, hlater⟩
  -- the first line has no break, and each later one has its own
  · by_cases hne : cs = []
    · subst hne
      rfl
    · rw [if_neg hne, segments_of_ne_nil hne, List.length_cons,
        (led_firstAndLater cs).length_later]

/-- Breaks at the start, at the end and one after the other. -/
example : segments "\na\n\nb\n".toList =
    [[], "\na".toList, "\n".toList, "\nb".toList, "\n".toList] := by decide

end CodeAssist.Text
