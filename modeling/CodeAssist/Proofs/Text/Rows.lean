import CodeAssist.Proofs.Text.Trimming
import CodeAssist.Text.Lines

/-!
# Patterns in rows

A text and its rows determine each other: joined by line breaks the rows are the text
(`intercalate_rows`), and texts without line breaks are the rows of what they are joined to
(`rows_intercalate`). A pattern without a line break does not reach over one, so it occurs in a text
exactly where it occurs in a row (`infix_iff_exists_row`), and one without blanks is not lost where
the end of a row is trimmed (`infix_trimEnd_iff`).
-/

namespace CodeAssist.Text

variable {pattern us vs cs row : List Char} {separator : Char}

/-! ### Rows and texts -/

/-- Cutting at a separator is what the core library does. -/
theorem splitOn_eq_splitOn (separator : Char) (cs : List Char) :
    splitOn separator cs = cs.splitOn separator := by
  induction cs with
  | nil => rfl
  | cons c cs ih =>
    rw [splitOn, ih, List.splitOn_cons_eq_if_modifyHead]
    cases hpieces : cs.splitOn separator with
    | nil => exact absurd hpieces (List.splitOn_ne_nil _ _)
    | cons piece rest => simp only [beq_iff_eq, List.modifyHead_cons]

theorem rows_ne_nil (cs : List Char) : rows cs ≠ [] := by
  rw [rows, splitOn_eq_splitOn]
  exact List.splitOn_ne_nil _ _

/-- **The rows lose nothing** but the breaks between them. -/
theorem intercalate_rows (cs : List Char) : ['\n'].intercalate (rows cs) = cs := by
  rw [rows, splitOn_eq_splitOn]
  exact List.intercalate_splitOn '\n'

/-- Texts without a line break are the rows of what they are joined to. -/
theorem rows_intercalate {lines : List (List Char)} (hlines : ∀ line ∈ lines, '\n' ∉ line)
    (h : lines ≠ []) : rows (['\n'].intercalate lines) = lines := by
  rw [rows, splitOn_eq_splitOn]
  exact List.splitOn_intercalate '\n' hlines h

/-- A piece does not have the separator. -/
theorem notMem_of_mem_splitOn (h : row ∈ splitOn separator cs) : separator ∉ row := by
  fun_induction splitOn separator cs generalizing row with
  | case1 => rw [List.mem_singleton.1 h]; exact List.not_mem_nil
  | case2 cs ih =>
    rcases List.mem_cons.1 h with rfl | hrow
    · exact List.not_mem_nil
    · exact ih hrow
  -- the last piece is a single character, and no separator
  | case3 c cs hc hnil ih =>
    rw [List.mem_singleton.1 h, List.mem_singleton]
    exact Ne.symm hc
  | case4 c cs hc piece rest hpieces ih =>
    -- the character joins the piece behind it, and is no separator either
    rw [hpieces] at ih
    rcases List.mem_cons.1 h with rfl | hrow
    · rw [List.mem_cons, not_or]
      exact ⟨Ne.symm hc, ih List.mem_cons_self⟩
    · exact ih (List.mem_cons_of_mem _ hrow)

/-! ### Patterns -/

/-- A pattern does not reach over a character that it does not have. -/
theorem infix_append_cons_iff (h : separator ∉ pattern) :
    pattern <:+: us ++ separator :: vs ↔ pattern <:+: us ∨ pattern <:+: vs := by
  rw [List.infix_append_iff, List.infix_cons_iff]
  constructor
  -- a pattern that crosses the separator would have it inside
  · rintro (hus | (hinitial | hvs) | ⟨first, second, rfl, hsuffix, hinitial⟩)
    · exact .inl hus
    · cases pattern with
      | nil => exact .inl List.nil_infix
      | cons c pattern => simp_all [List.cons_prefix_cons]
    · exact .inr hvs
    · cases second with
      | nil => rw [List.append_nil]; exact .inl hsuffix.isInfix
      | cons c second => simp_all [List.cons_prefix_cons]
  · rintro (hus | hvs)
    · exact .inl hus
    · exact .inr (.inl (.inr hvs))

/-- A pattern without the separator occurs in joined texts where it occurs in one of them. -/
theorem infix_intercalate_iff (h : separator ∉ pattern) {lines : List (List Char)}
    (hlines : lines ≠ []) :
    pattern <:+: [separator].intercalate lines ↔ ∃ line ∈ lines, pattern <:+: line := by
  induction lines with
  | nil => exact absurd rfl hlines
  | cons line lines ih =>
    cases lines with
    | nil => simp
    | cons next lines =>
      rw [List.intercalate_cons_cons, List.append_assoc, List.singleton_append,
        infix_append_cons_iff h, ih (List.cons_ne_nil _ _)]
      exact (List.exists_mem_cons_iff ..).symm

/-- **A pattern in rows** stands in one of them where it stands in the text. -/
theorem infix_iff_exists_row (h : '\n' ∉ pattern) :
    pattern <:+: cs ↔ ∃ row ∈ rows cs, pattern <:+: row := by
  rw [← infix_intercalate_iff h (rows_ne_nil cs), intercalate_rows]

/-- A pattern without blanks is not lost where blanks are taken away. -/
theorem infix_trimEnd_iff (h : ∀ c ∈ pattern, isBlank c = false) :
    pattern <:+: trimEnd cs ↔ pattern <:+: cs := by
  obtain ⟨blanks, happend, hblanks⟩ := exists_trimEnd_append cs
  -- what of the pattern stands in the blanks is nothing
  have hnone : ∀ part, part ⊆ pattern → part ⊆ blanks → part = [] := by
    intro part hpattern hpart
    refine List.eq_nil_iff_forall_not_mem.2 fun c hc => ?_
    exact Bool.false_ne_true ((h c (hpattern hc)).symm.trans (hblanks c (hpart hc)))
  constructor
  · intro htrimmed
    exact htrimmed.trans (Text.dropEndWhile_prefix isBlank cs).isInfix
  -- the pattern stands in the trimmed text, in the blanks or across the two
  · intro hcs
    rw [← happend, List.infix_append_iff] at hcs
    rcases hcs with htrimmed | hin | ⟨first, second, rfl, hsuffix, hinitial⟩
    · exact htrimmed
    · rw [hnone pattern (List.Subset.refl _) hin.subset]
      exact List.nil_infix
    · rw [hnone second (List.subset_append_right _ _) hinitial.subset, List.append_nil]
      exact hsuffix.isInfix

end CodeAssist.Text
