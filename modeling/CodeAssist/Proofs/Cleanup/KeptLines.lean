import CodeAssist.Proofs.Cleanup.Gaps
import CodeAssist.Proofs.Text.Lines

/-!
# What is kept of a reply

A reply is kept up to the next line (`Text.NextLine`), and of the lines from there on all but some
are kept, each as it is and in their order. So where nothing is left out, the lines join to the
reply again. That is so where no line from the next one on repeats a line before it, because every
group of common lines has a member, and that member is a repeat (`exists_repeats_of_mem_leftOut`).

Main statement: `removeRepeats_by_lines`.
-/

namespace CodeAssist.Cleanup

variable {settings : RepeatSettings} {before after : List (List Char)}

/-! ### Lines that are kept -/

/-- The lines behind the break that are not left out. -/
def keptLines (settings : RepeatSettings) (before after : List (List Char)) : List (List Char) :=
  (after.zipIdx.filter fun (_, i) => i ∉ leftOut settings before after).map Prod.fst

/-- Kept lines are some of the lines, in their order. -/
theorem keptLines_sublist (settings : RepeatSettings) (before after : List (List Char)) :
    (keptLines settings before after).Sublist after := by
  rw [keptLines, ← keepOutside_droppedSpans]
  exact keepOutside_sublist _ after

/-- **Lines are left out only where one of them is a repeat.** -/
theorem exists_repeats_of_mem_leftOut {i : Nat} (h : i ∈ leftOut settings before after) :
    ∃ line ∈ after, Repeats before line := by
  obtain ⟨group, hgroup, -⟩ := mem_leftOut_iff.1 h
  have hcommon := mem_commonLines_of_mem_droppedGroups hgroup
  have hne : group ≠ [] := fun hnil => Text.nil_notMem_commonLines _ _ (hnil ▸ hcommon)
  have hhead := List.head_mem hne
  -- the first member is the number of a line
  obtain ⟨trimmed, -, htrimmed⟩ := Text.exists_line_of_mem_group hcommon hhead
  rw [List.getElem?_map, Option.map_eq_some_iff] at htrimmed
  obtain ⟨line, hline, -⟩ := htrimmed
  exact ⟨line, List.mem_of_getElem? hline, repeats_of_mem_group hcommon hhead hline⟩

/-- All lines are kept where none is a repeat. -/
theorem keptLines_eq_self (h : ∀ line ∈ after, ¬ Repeats before line) :
    keptLines settings before after = after := by
  have hall : ∀ i, i ∉ leftOut settings before after := by
    intro i hi
    obtain ⟨line, hline, hrepeats⟩ := exists_repeats_of_mem_leftOut hi
    exact h line hline hrepeats
  rw [keptLines, List.filter_eq_self.2 fun entry _ => decide_eq_true (hall entry.2),
    List.zipIdx_map_fst]

/-! ### Replies by lines -/

section Reply

variable {context completion : String}

/-- In the middle of the last line all of the reply is kept. -/
theorem removeRepeats_of_lastLine (hstart : ¬ Text.AtLineStart context.toList)
    (hbreak : '\n' ∉ completion.toList) :
    removeRepeats context completion settings = completion := by
  have hnone := Text.restOfLine?_eq_none_iff.2 ⟨hstart, hbreak⟩
  simp only [removeRepeats, hnone]

/-- Elsewhere it is kept up to the next line, and the kept lines come behind that. -/
theorem removeRepeats_of_nextLine {rest following : List Char}
    (h : Text.NextLine context.toList completion.toList rest following) :
    (removeRepeats context completion settings).toList =
      rest ++ (keptLines settings (Text.segments (context.toList ++ rest))
        (Text.segments following)).flatten := by
  have hsome := Text.restOfLine?_eq_some_iff.2 h
  rw [keptLines, ← keepOutside_droppedSpans]
  simp only [removeRepeats, hsome, String.toList_ofList]

end Reply

/-- **Repeats are removed line by line.** This never leaves the bounds of the texts and lists that
it goes through. In the middle of the last line a reply stays as it is. Elsewhere it is kept up to
the next line, and behind that come the lines that are not left out, each once and in their order. A
reply of which no line from the next one on repeats a line before it stays as it is, too. -/
theorem removeRepeats_by_lines (context completion : String) (settings : RepeatSettings) :
    let result := removeRepeats context completion settings
    removeRepeatsChecked? context completion settings = some result ∧
      (¬ Text.AtLineStart context.toList → '\n' ∉ completion.toList → result = completion) ∧
      (Text.AtLineStart context.toList ∨ '\n' ∈ completion.toList →
        ∃ rest following, Text.NextLine context.toList completion.toList rest following ∧
          let before := Text.segments (context.toList ++ rest)
          let after := Text.segments following
          (keptLines settings before after).Sublist after ∧
            result.toList = rest ++ (keptLines settings before after).flatten ∧
            ((∀ line ∈ after, ¬ Repeats before line) → result = completion)) := by
  intro result
  refine ⟨removeRepeatsChecked?_eq context completion settings, removeRepeats_of_lastLine,
    fun hnext => ?_⟩
  -- there is a next line
  have hsome : Text.restOfLine? context.toList completion.toList ≠ none := by
    rw [ne_eq, Text.restOfLine?_eq_none_iff, not_and_or, not_not, not_not]
    exact hnext
  obtain ⟨⟨rest, following⟩, hrest⟩ := Option.ne_none_iff_exists'.1 hsome
  have hline := Text.restOfLine?_eq_some_iff.1 hrest
  have hresult : result.toList = _ := removeRepeats_of_nextLine hline
  refine ⟨rest, following, hline, keptLines_sublist .., hresult, fun hnew => ?_⟩
  apply String.toList_injective
  rw [hresult, keptLines_eq_self hnew, Text.flatten_segments, hline.append]

/-- A reply at a line start repeats the line before it and goes on with a new one. Only the new one
is kept. In the middle of a line, two lines that are new are kept as they are. -/
theorem removeRepeats_by_lines_echo :
    removeRepeats "width = 1\n" "width = 1\nheight = 2" {} = "\nheight = 2" ∧
      (∃ rest following, Text.NextLine "width = 1\n".toList "width = 1\nheight = 2".toList rest
        following ∧
        "\nheight = 2".toList = rest ++ (keptLines {} (Text.segments ("width = 1\n".toList ++ rest))
          (Text.segments following)).flatten) ∧
      removeRepeats "width" " = 1\nheight = 2" {} = " = 1\nheight = 2" := by
  have hecho : removeRepeats "width = 1\n" "width = 1\nheight = 2" {} = "\nheight = 2" := by
    decide +kernel
  -- the first context ends behind a break, so its completion starts a line
  have hstart : Text.AtLineStart "width = 1\n".toList := ⟨"width = 1".toList, [], rfl, by simp⟩
  obtain ⟨-, -, hlines⟩ := removeRepeats_by_lines "width = 1\n" "width = 1\nheight = 2" {}
  obtain ⟨rest, following, hline, -, hresult, -⟩ := hlines (.inl hstart)
  rw [hecho] at hresult
  refine ⟨hecho, ⟨rest, following, hline, hresult⟩, ?_⟩
  obtain ⟨-, -, hlines⟩ := removeRepeats_by_lines "width" " = 1\nheight = 2" {}
  obtain ⟨rest, following, hline, -, -, hsame⟩ := hlines (.inr (by decide))
  have hrest : Text.restOfLine? "width".toList " = 1\nheight = 2".toList =
      some (" = 1\n".toList, "height = 2".toList) := by decide +kernel
  -- the kept part ends behind the completion's own break
  rw [Text.restOfLine?_eq_some_iff.2 hline] at hrest
  obtain ⟨rfl, rfl⟩ := Prod.mk.inj (Option.some.inj hrest)
  refine hsame ?_
  unfold Repeats
  decide +kernel

end CodeAssist.Cleanup
