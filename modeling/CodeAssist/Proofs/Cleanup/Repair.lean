import CodeAssist.Cleanup.Blocks
import CodeAssist.Proofs.Text.Trimming

/-!
# Repairing the end of a completion

A repair goes in rounds. A round takes away the last visible character, with the blanks behind it,
and is made only where that lowers the number of errors (`Round`). So what one round does is known
before anything is known of errors: it cuts off one visible character (`Round.exists_cut`) and takes
at least one error away, and `n` rounds cut off `n` visible characters and take away `n` errors or
more (`Rounds.exists_cut`, `Rounds.exists_count`).

`repair_rounds` says that a repair is a run of such rounds, which ends with its last attempt or
where no round is possible. No more is needed of the loop.

Main statement: `repairEnd_by_rounds`, for every parser and so for every number of errors that a
text may have, whether or not it goes down with the length of the text.
-/

namespace CodeAssist.Cleanup

open CodeAssist
open CodeAssist.Text (isBlank trimEnd visibleCount)
open CodeAssist.Tree (Node Parser)

variable {count? : List Char → Option Nat}

/-! ### One round -/

/-- A round of a repair: the last visible character, and what follows it, is taken away, and there
are fewer errors then. -/
structure Round (count? : List Char → Option Nat) (text shorter : List Char) : Prop where
  visible : trimEnd text ≠ []
  shorter_eq : shorter = (trimEnd text).dropLast
  fewer : ∃ more less, count? text = some more ∧ count? shorter = some less ∧ less < more

/-- **A round cuts off one visible character.** -/
theorem Round.exists_cut {text shorter : List Char} (h : Round count? text shorter) :
    ∃ cut, shorter ++ cut = text ∧ visibleCount cut = 1 := by
  obtain ⟨c, blanks, hcut, hc, hblanks⟩ := Text.exists_last_visible h.visible
  exact ⟨c :: blanks, h.shorter_eq ▸ hcut, Text.visibleCount_cons_blanks hc hblanks⟩

/-- There is something to take away. -/
theorem Round.ne_nil {text shorter : List Char} (h : Round count? text shorter) : text ≠ [] := by
  rintro rfl
  exact h.visible rfl

/-! ### Rounds one after the other -/

/-- So many rounds lead from a text to another one. -/
inductive Rounds (count? : List Char → Option Nat) : Nat → List Char → List Char → Prop where
  | none (text : List Char) : Rounds count? 0 text text
  | next {n : Nat} {text shorter result : List Char} (round : Round count? text shorter)
      (later : Rounds count? n shorter result) : Rounds count? (n + 1) text result

namespace Rounds

variable {n : Nat} {text result : List Char}

/-- **Each round cuts off one visible character.** -/
theorem exists_cut (h : Rounds count? n text result) :
    ∃ cut, result ++ cut = text ∧ visibleCount cut = n := by
  induction h with
  | none text => exact ⟨[], List.append_nil text, rfl⟩
  | next round later ih =>
    obtain ⟨last, hlast, hone⟩ := round.exists_cut
    obtain ⟨cut, hcut, hn⟩ := ih
    refine ⟨cut ++ last, ?_, ?_⟩
    · rw [← List.append_assoc, hcut, hlast]
    · rw [Text.visibleCount_append, hn, hone]

/-- **Each round takes an error away**, or more than one. -/
theorem exists_count (h : Rounds count? n text result) {more : Nat}
    (hmore : count? text = some more) :
    ∃ less, count? result = some less ∧ less + n ≤ more := by
  induction h generalizing more with
  | none text => exact ⟨more, hmore, Nat.le_refl more⟩
  | next round later ih =>
    obtain ⟨before, behind, hbefore, hbehind, hlt⟩ := round.fewer
    obtain rfl := Option.some.inj (hmore.symm.trans hbefore)
    obtain ⟨less, hless, hle⟩ := ih hbehind
    exact ⟨less, hless, by omega⟩

/-- Rounds leave a text as it is, or with fewer errors. -/
theorem eq_or_fewer (h : Rounds count? n text result) :
    result = text ∨ ∃ less more, count? result = some less ∧ count? text = some more ∧
      less < more := by
  cases h with
  | none => exact .inl rfl
  | next round later =>
    obtain ⟨more, -, hmore, -⟩ := round.fewer
    obtain ⟨less, hless, hle⟩ := (Rounds.next round later).exists_count hmore
    exact .inr ⟨less, more, hless, hmore, by omega⟩

/-- As many rounds as a text has characters leave nothing of it. -/
theorem eq_nil (h : Rounds count? n text result) (hn : text.length ≤ n) : result = [] := by
  obtain ⟨cut, hcut, hvisible⟩ := h.exists_cut
  have hle := Text.visibleCount_le_length cut
  rw [← hcut, List.length_append] at hn
  exact List.eq_nil_of_length_eq_zero (by omega)

end Rounds

/-! ### The repair -/

/-- **A repair is a run of rounds.** It makes all of its attempts, or ends where no further round is
possible. -/
theorem repair_rounds (attempts : Nat) {best : Nat} {text : List Char}
    (h : count? text = some best) :
    ∃ n ≤ attempts, Rounds count? n text (repair count? attempts best text) ∧
      (n = attempts ∨ ∀ shorter, ¬ Round count? (repair count? attempts best text) shorter) := by
  -- the number of errors that is carried along is the one of the text
  fun_induction repair count? attempts best text with
  | case1 best text => exact ⟨0, Nat.le_refl 0, .none text, .inl rfl⟩
  | case2 attempts text =>
    -- no errors are left, so there cannot be fewer
    refine ⟨0, Nat.zero_le _, .none text, .inr fun shorter round => ?_⟩
    obtain ⟨more, less, hmore, -, hlt⟩ := round.fewer
    obtain rfl := Option.some.inj (h.symm.trans hmore)
    exact Nat.not_lt_zero less hlt
  -- only blanks are left, and a round takes a visible character
  | case3 attempts best text hbest trimmed hempty =>
    refine ⟨0, Nat.zero_le _, .none text, .inr fun shorter round => ?_⟩
    exact round.visible (List.isEmpty_iff.1 hempty)
  | case4 attempts best text hbest trimmed hvisible count hcount hless ih =>
    obtain ⟨n, hn, hrounds, hend⟩ := ih hcount
    have hround : Round count? text trimmed.dropLast :=
      ⟨mt List.isEmpty_iff.2 hvisible, rfl, best, count, h, hcount, hless⟩
    refine ⟨n + 1, Nat.succ_le_succ hn, .next hround hrounds, ?_⟩
    exact hend.imp_left (congrArg (· + 1))
  -- the shorter text was counted, and it has no fewer errors
  | case5 attempts best text hbest trimmed hvisible count hcount hnot =>
    refine ⟨0, Nat.zero_le _, .none text, .inr fun shorter round => ?_⟩
    obtain ⟨more, less, hmore, hless, hlt⟩ := round.fewer
    rw [round.shorter_eq] at hless
    obtain rfl := Option.some.inj (h.symm.trans hmore)
    obtain rfl := Option.some.inj (hcount.symm.trans hless)
    exact hnot hlt
  -- the shorter text cannot be parsed, so it has no count to compare
  | case6 attempts best text hbest trimmed hvisible hcount =>
    refine ⟨0, Nat.zero_le _, .none text, .inr fun shorter round => ?_⟩
    obtain ⟨more, less, -, hless, -⟩ := round.fewer
    rw [round.shorter_eq] at hless
    cases hcount.symm.trans hless

/-! ### The end of a completion -/

/-- The number of errors of a candidate between the code before and behind it. -/
def errorsBetween? (parser : Parser) (before after : String) (language : Option Language)
    (candidate : List Char) : Option Nat :=
  errorCount? parser (before ++ String.ofList candidate ++ after) language

section End

variable (parser : Parser) (before completion after : String) (language : Option Language)
  (maxAttempts : Nat)

/-- Nothing is repaired in front of blank code. -/
theorem repairEnd_of_blank (h : ∀ c ∈ after.toList, isBlank c = true) :
    repairEnd parser before completion after language maxAttempts = completion := by
  have hblank : (Text.trim after.toList).isEmpty = true :=
    List.isEmpty_iff.2 (Text.trim_eq_nil_iff.2 h)
  exact if_pos (by simp [hblank])

/-- A completion stays as it is in front of blank code, where it is empty, and where its errors
cannot be counted. Otherwise it is repaired. -/
theorem repairEnd_cases :
    let count? := errorsBetween? parser before after language
    let repaired := repairEnd parser before completion after language maxAttempts
    (repaired = completion ∧ ((∀ c ∈ after.toList, isBlank c = true) ∨ completion = "" ∨
      count? completion.toList = none)) ∨
    ∃ best, count? completion.toList = some best ∧ repaired.toList =
      repair count? (min maxAttempts completion.toList.length) best completion.toList := by
  intro count? repaired
  by_cases hskip : (Text.trim after.toList).isEmpty ∨ completion = ""
  -- blank text behind the cursor, or nothing to repair
  · have hrepaired : repaired = completion := if_pos (by simpa using hskip)
    refine .inl ⟨hrepaired, hskip.imp (fun h => ?_) .inl⟩
    exact Text.trim_eq_nil_iff.1 (List.isEmpty_iff.1 h)
  · have hrepaired : repaired = _ := if_neg (by simpa using hskip)
    split at hrepaired
    · next hnone => exact .inl ⟨hrepaired, .inr (.inr hnone)⟩
    · next best hbest =>
      refine .inr ⟨best, hbest, ?_⟩
      rw [hrepaired, String.toList_ofList]
      rfl

/-- **The end of a completion is repaired in rounds**, too. In front of code that is not blank all
attempts are made, or no further round is possible. -/
theorem repairEnd_rounds :
    let count? := errorsBetween? parser before after language
    let repaired := (repairEnd parser before completion after language maxAttempts).toList
    ∃ n ≤ maxAttempts, Rounds count? n completion.toList repaired ∧
      ((∀ c ∈ after.toList, isBlank c = true) ∨ n = maxAttempts ∨
        ∀ shorter, ¬ Round count? repaired shorter) := by
  intro count? repaired
  rcases repairEnd_cases parser before completion after language maxAttempts with
    ⟨hsame, hcause⟩ | ⟨best, hbest, hrepair⟩
  -- nothing was repaired, which is right unless there is something to count
  · have hrepaired : repaired = completion.toList := congrArg String.toList hsame
    rw [hrepaired]
    refine ⟨0, Nat.zero_le _, .none _, hcause.imp_right fun hcause => .inr fun shorter round => ?_⟩
    rcases hcause with hempty | hnone
    · exact round.ne_nil (by rw [hempty]; rfl)
    · obtain ⟨more, less, hmore, -⟩ := round.fewer
      cases hnone.symm.trans hmore
  · have hrepaired : repaired = _ := hrepair
    rw [hrepaired]
    -- the text's own length only bounds the rounds from above
    obtain ⟨n, hn, hrounds, hend⟩ :=
      repair_rounds (min maxAttempts completion.toList.length) hbest
    refine ⟨n, Nat.le_trans hn (Nat.min_le_left _ _), hrounds, .inr ?_⟩
    rcases hend with hall | hnone
    · rcases Nat.le_total maxAttempts completion.toList.length with hle | hle
      · exact .inl (hall.trans (Nat.min_eq_left hle))
      · -- all characters have been taken away
        have hnil := hrounds.eq_nil (hall.trans (Nat.min_eq_right hle)).ge
        exact .inr fun shorter round => round.ne_nil hnil
    · exact .inr hnone

/-- **What a repair does to the end of a completion.** The result is a first part of the completion,
and has fewer errors between the code before and behind it unless it is all of the completion. No
more visible characters are cut off than there are attempts, nor more than the number of errors goes
down by. In front of blank code, and without a language, nothing is cut off. Elsewhere the repair
ends with its last attempt, or where taking away one more visible character does not help. -/
theorem repairEnd_by_rounds :
    let count? := errorsBetween? parser before after language
    let repaired := (repairEnd parser before completion after language maxAttempts).toList
    ∃ cut, repaired ++ cut = completion.toList ∧
      (repaired = completion.toList ∨ ∃ less more, count? repaired = some less ∧
        count? completion.toList = some more ∧ less < more) ∧
      (∀ less more, count? repaired = some less → count? completion.toList = some more →
        visibleCount cut ≤ min maxAttempts (more - less)) ∧
      ((∀ c ∈ after.toList, isBlank c = true) ∨ language = none →
        repaired = completion.toList) ∧
      (¬ (∀ c ∈ after.toList, isBlank c = true) → visibleCount cut = maxAttempts ∨
        ∀ shorter, ¬ Round count? repaired shorter) := by
  intro count? repaired
  obtain ⟨n, hn, hrounds, hend⟩ :=
    repairEnd_rounds parser before completion after language maxAttempts
  obtain ⟨cut, hcut, hvisible⟩ := hrounds.exists_cut
  refine ⟨cut, hcut, hrounds.eq_or_fewer, fun less more hless hmore => ?_, ?_, fun hnot => ?_⟩
  -- the rounds know the errors of both texts, and each one took a visible character
  · obtain ⟨less', hless', hle⟩ := hrounds.exists_count hmore
    obtain rfl := Option.some.inj (hless.symm.trans hless')
    omega
  · rintro (hblank | rfl)
    · exact congrArg String.toList (repairEnd_of_blank parser before completion after language
        maxAttempts hblank)
    · -- without a language no errors are counted, so there are not fewer
      refine hrounds.eq_or_fewer.resolve_right ?_
      rintro ⟨less, more, -, hmore, -⟩
      cases hmore
  · rw [hvisible]
    exact hend.resolve_left hnot

end End

/-- A parser for a language of braces. A tree has an error for each closing brace but the first. -/
def braceParser : Parser := fun _ source =>
  let extra := source.toList.count '\x7d' - 1
  let size := Text.byteSize source.toList
  some (.mk ⟨"program", true, 0 < extra, false, 0, size⟩
    ((List.range extra).map fun i => .mk ⟨"ERROR", true, true, false, i, i + 1⟩ []))

/-- Two of the three closing braces are too many, and the completion has two of them at its end. So
two rounds take away two visible characters and two errors, and then the repair ends before its
attempts do. -/
theorem repairEnd_by_rounds_braces :
    ∃ cut, "a ".toList ++ cut = "a \x7d\n\x7d\n".toList ∧ visibleCount cut = 2 ∧
      errorsBetween? braceParser "\x7b" "\x7d" (some .rust) "a ".toList = some 0 ∧
      errorsBetween? braceParser "\x7b" "\x7d" (some .rust) "a \x7d\n\x7d\n".toList = some 2 ∧
      visibleCount cut ≤ min 4 (2 - 0) := by
  have hresult : repairEnd braceParser "\x7b" "a \x7d\n\x7d\n" "\x7d" (some .rust) 4 = "a " := by
    decide +kernel
  have hless : errorsBetween? braceParser "\x7b" "\x7d" (some .rust) "a ".toList = some 0 := by
    decide +kernel
  have hmore : errorsBetween? braceParser "\x7b" "\x7d" (some .rust) "a \x7d\n\x7d\n".toList =
      some 2 := by
    decide +kernel
  obtain ⟨cut, hcut, -, hbound, -⟩ :=
    repairEnd_by_rounds braceParser "\x7b" "a \x7d\n\x7d\n" "\x7d" (some .rust) 4
  -- two closing braces have been taken off, with the break between them
  rw [hresult] at hcut hbound
  refine ⟨cut, hcut, ?_, hless, hmore, hbound 0 2 hless hmore⟩
  obtain rfl : cut = "\x7d\n\x7d\n".toList := List.append_cancel_left hcut
  decide

end CodeAssist.Cleanup
