import CodeAssist.Cleanup.Pipeline
import CodeAssist.Proofs.Text.Breaks
import CodeAssist.Proofs.Text.Trimming

/-!
# Stripping fences

A fence that opens a block is a whole line: three marks, a name without blanks, and a break. What
stands behind the last break is therefore never one, and leaving out the fences leaves every other
line as it is. The marks at the end are taken off the text behind the last break only, because a
break is no mark. So stripping keeps the whole lines that are no fence, and of the rest what is
left without the marks at its end (`lines_stripFences`); from this follow the main statements:

* `stripFences_complete` — no fence is left, no mark at the end, the other lines stay as they are,
  and there is nothing left to strip;
* `stripFences_of_no_fenceMarks` — without three marks in a row at most two characters are lost, all
  of them marks at the very end. They may belong to the code (`literal_end_lost`).
-/

namespace CodeAssist.Cleanup

open CodeAssist.Text (Lines dropEndWhile terminated)

/-! ### Fences -/

/-- Three marks, a name without blanks, and a break. -/
def IsFence (line : List Char) : Prop :=
  ∃ name, line = fenceMarks ++ name ++ ['\n'] ∧ ∀ c ∈ name, Text.isBlank c = false

theorem opensFence_iff {line : List Char} : opensFence line = true ↔ IsFence line := by
  -- behind the marks, what stands before the last character is the name
  have hname : ∀ name c, ((fenceMarks ++ (name ++ [c])).drop 3).dropLast = name :=
    fun name c => List.dropLast_concat
  simp only [opensFence, Bool.and_eq_true, List.isPrefixOf_iff_prefix, decide_eq_true_eq,
    Bool.not_eq_true', List.any_eq_false]
  constructor
  · rintro ⟨⟨⟨rest, rfl⟩, hlast⟩, hblank⟩
    rcases List.eq_nil_or_concat rest with rfl | ⟨name, c, rfl⟩
    · -- the last of three marks is no break
      exact absurd hlast (by decide)
    · rw [List.concat_eq_append] at hlast hblank ⊢
      rw [hname] at hblank
      obtain rfl : c = '\n' := by simpa using hlast
      exact ⟨name, (List.append_assoc ..).symm, fun c hc => Bool.eq_false_iff.2 (hblank c hc)⟩
  · rintro ⟨name, rfl, hblank⟩
    refine ⟨⟨⟨name ++ ['\n'], (List.append_assoc ..).symm⟩, List.getLast?_concat⟩, fun c hc => ?_⟩
    rw [List.append_assoc, hname] at hc
    exact Bool.eq_false_iff.1 (hblank c hc)

instance : DecidablePred IsFence := fun _ => decidable_of_iff _ opensFence_iff

/-- The marks and the name have no break, as a break is blank. -/
theorem IsFence.isWhole {line : List Char} (h : IsFence line) : Text.IsWhole line := by
  obtain ⟨name, rfl, hname⟩ := h
  refine ⟨fenceMarks ++ name, rfl, fun hmem => ?_⟩
  rcases List.mem_append.1 hmem with hmarks | hblank
  · exact absurd hmarks (by decide)
  · exact absurd (hname _ hblank) (by decide)

theorem IsFence.break_mem {line : List Char} (h : IsFence line) : '\n' ∈ line := by
  obtain ⟨body, rfl, -⟩ := h.isWhole
  exact List.mem_append_right _ List.mem_cons_self

/-! ### The lines that stay -/

section Lines

variable {text : String} {cs last : List Char} {whole : List (List Char)}

/-- The other lines are the whole ones that are no fence, and what stands behind them. -/
theorem filter_terminated (h : Lines cs whole last) :
    (terminated cs).filter (fun line => ¬ IsFence line) =
      whole.filter (fun line => ¬ IsFence line) ++ terminated last := by
  rw [h.terminated_eq, List.filter_append]
  congr 1
  -- the unfinished line has no break, and a fence ends in one
  refine List.filter_eq_self.2 fun line hline => decide_eq_true fun hfence => ?_
  exact Text.terminated_of_notMem h.unfinished line hline hfence.break_mem

/-- Stripping takes the marks off the end of the other lines. -/
theorem toList_stripFences (text : String) :
    (stripFences text).toList = dropEndWhile (· = '\x60')
      ((terminated text.toList).filter fun line => ¬ IsFence line).flatten := by
  have hkeep : (fun line => !opensFence line) = fun line => decide (¬ IsFence line) := by
    funext line
    rw [Bool.eq_iff_iff, Bool.not_eq_true', decide_eq_true_eq, ← opensFence_iff, Bool.not_eq_true]
  simp only [stripFences, String.toList_ofList, hkeep]

/-- What is lost of the other lines are marks. -/
theorem exists_stripFences_append (text : String) :
    ∃ marks, (∀ c ∈ marks, c = '\x60') ∧ (stripFences text).toList ++ marks =
      ((terminated text.toList).filter fun line => ¬ IsFence line).flatten := by
  rw [toList_stripFences]
  obtain ⟨marks, happend, hmarks⟩ := Text.exists_dropEndWhile_append (· = '\x60')
    ((terminated text.toList).filter fun line => ¬ IsFence line).flatten
  exact ⟨marks, fun c hc => of_decide_eq_true (hmarks c hc), happend⟩

/-- **No lines grow together** where the fences between them are left out. -/
theorem terminated_flatten_filter (cs : List Char) :
    terminated ((terminated cs).filter fun line => ¬ IsFence line).flatten =
      (terminated cs).filter fun line => ¬ IsFence line := by
  obtain ⟨whole, last, h⟩ := Text.exists_lines cs
  rw [filter_terminated h, List.flatten_append, Text.flatten_terminated]
  exact (h.filter _ List.prefix_rfl).terminated_eq

/-- **Stripping by lines.** The whole lines stay that are no fence, and what stands behind the last
break stays without the marks at its end. -/
theorem lines_stripFences (h : Lines text.toList whole last) :
    Lines (stripFences text).toList (whole.filter fun line => ¬ IsFence line)
      (dropEndWhile (· = '\x60') last) := by
  have hkept := h.filter (fun line => ¬ IsFence line) List.prefix_rfl
  have hstrip : (stripFences text).toList =
      (whole.filter fun line => ¬ IsFence line).flatten ++ dropEndWhile (· = '\x60') last := by
    rw [toList_stripFences, filter_terminated h, List.flatten_append, Text.flatten_terminated]
    -- a break stops the marks from being taken away
    refine Text.dropEndWhile_append (fun c hc => ?_) last
    rw [hkept.eq_break_of_mem_getLast? c hc]
    rfl
  rw [hstrip]
  exact h.filter _ (Text.dropEndWhile_prefix _ last)

theorem not_isFence_of_mem_stripFences (text : String) :
    ∀ line ∈ terminated (stripFences text).toList, ¬ IsFence line := by
  intro line hline hfence
  obtain ⟨whole, last, htext⟩ := Text.exists_lines text.toList
  have hresult := lines_stripFences htext
  rw [hresult.terminated_eq] at hline
  -- the whole lines that are left were filtered
  rcases List.mem_append.1 hline with hwhole | hlast
  · exact of_decide_eq_true (List.mem_filter.1 hwhole).2 hfence
  · -- a fence has its break
    exact Text.terminated_of_notMem hresult.unfinished line hlast hfence.break_mem

theorem getLast?_stripFences_ne (text : String) :
    (stripFences text).toList.getLast? ≠ some '\x60' := by
  rw [toList_stripFences]
  intro hlast
  exact absurd (Text.eq_false_of_mem_getLast?_dropEndWhile hlast) (by decide)

/-- **Where there is nothing to strip,** a text stays as it is. -/
theorem stripFences_eq_self (hlines : ∀ line ∈ terminated text.toList, ¬ IsFence line)
    (hlast : text.toList.getLast? ≠ some '\x60') : stripFences text = text := by
  -- nothing is filtered out, so only the marks at the end could go
  have hall : (terminated text.toList).filter (fun line => ¬ IsFence line) =
      terminated text.toList :=
    List.filter_eq_self.2 fun line hline => decide_eq_true (hlines line hline)
  apply String.toList_injective
  rw [toList_stripFences, hall, Text.flatten_terminated]
  refine Text.dropEndWhile_eq_self fun c hc => decide_eq_false ?_
  rintro rfl
  exact hlast hc

end Lines

/-! ### Nothing left to strip -/

/-- **Stripping is complete.** What is left has no fence at the start of a line and no mark at its
end. With the marks that the end has lost it has the lines of the text that are no fence, in their
order. Stripping it once more changes nothing. -/
theorem stripFences_complete (text : String) :
    let result := stripFences text
    (∀ above line below, result.toList = above ++ line ++ below →
        (∀ c ∈ above.getLast?, c = '\n') → ¬ IsFence line) ∧
      result.toList.getLast? ≠ some '\x60' ∧
      (∃ marks, (∀ c ∈ marks, c = '\x60') ∧ terminated (result.toList ++ marks) =
        (terminated text.toList).filter fun line => ¬ IsFence line) ∧
      stripFences result = result := by
  intro result
  have hlines : ∀ line ∈ terminated result.toList, ¬ IsFence line :=
    not_isFence_of_mem_stripFences text
  have hlast : result.toList.getLast? ≠ some '\x60' := getLast?_stripFences_ne text
  obtain ⟨marks, hmarks, happend⟩ := exists_stripFences_append text
  have hothers := terminated_flatten_filter text.toList
  rw [← happend] at hothers
  refine ⟨fun above line below hresult habove hfence => ?_, hlast, ⟨marks, hmarks, hothers⟩,
    stripFences_eq_self hlines hlast⟩
  -- a fence at the start of a line would be one of the lines
  refine hlines line ?_ hfence
  rw [hresult]
  exact Text.mem_terminated_append habove hfence.isWhole below

/-! ### Texts without fences -/

theorem not_isFence_of_notInfix {line : List Char} (h : ¬ fenceMarks <:+: line) :
    ¬ IsFence line := by
  rintro ⟨name, rfl, -⟩
  exact h ⟨[], name ++ ['\n'], (List.append_assoc ..).symm⟩

/-- **Without three marks in a row** only marks at the very end are lost, two at most. So such a
text stays as it is exactly where it does not end in a mark. -/
theorem stripFences_of_no_fenceMarks {text : String} (h : ¬ fenceMarks <:+: text.toList) :
    (∃ n ≤ 2, text.toList = (stripFences text).toList ++ List.replicate n '\x60') ∧
      (stripFences text).toList.getLast? ≠ some '\x60' ∧
      (stripFences text = text ↔ text.toList.getLast? ≠ some '\x60') := by
  -- no line is a fence, as it is a part of the text
  have hlines : ∀ line ∈ terminated text.toList, ¬ IsFence line := by
    intro line hline
    refine not_isFence_of_notInfix fun hmarks => h (hmarks.trans ?_)
    rw [← Text.flatten_terminated text.toList]
    exact List.infix_of_mem_flatten hline
  have hlast := getLast?_stripFences_ne text
  refine ⟨?_, hlast, fun heq => heq ▸ hlast, stripFences_eq_self hlines⟩
  obtain ⟨marks, hmarks, happend⟩ := exists_stripFences_append text
  rw [List.filter_eq_self.2 fun line hline => decide_eq_true (hlines line hline),
    Text.flatten_terminated] at happend
  rw [← happend] at h ⊢
  have hreplicate := List.eq_replicate_of_mem hmarks
  refine ⟨marks.length, Nat.le_of_not_lt fun hlong => h ?_, by rw [← hreplicate]⟩
  -- more than two marks would have three in a row
  have hthree : fenceMarks <:+: marks := by
    rw [hreplicate, List.infix_replicate_iff]
    exact ⟨hlong, rfl⟩
  exact hthree.trans (List.suffix_append _ _).isInfix

/-- A name in two marks at the end of a remark. The marks are lost. -/
theorem stripFences_of_no_fenceMarks_named :
    ¬ fenceMarks <:+: "# see ``f``".toList ∧ stripFences "# see ``f``" = "# see ``f" ∧
      ∃ n ≤ 2, "# see ``f``".toList =
        (stripFences "# see ``f``").toList ++ List.replicate n '\x60' := by
  have hmarks : ¬ fenceMarks <:+: "# see ``f``".toList := by decide +kernel
  obtain ⟨hlost, -, -⟩ := stripFences_of_no_fenceMarks hmarks
  exact ⟨hmarks, by decide +kernel, hlost⟩

/-- **The marks may belong to the code.** A literal at the end has no three marks in a row and loses
its last one. -/
theorem literal_end_lost :
    ¬ fenceMarks <:+: "const s = `a`".toList ∧ stripFences "const s = `a`" = "const s = `a" ∧
      stripFences "const s = `a`" ≠ "const s = `a`" := by
  decide +kernel

end CodeAssist.Cleanup
