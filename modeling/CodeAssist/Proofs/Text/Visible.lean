import CodeAssist.Proofs.Text.Points
import Mathlib.Order.Bounds.Basic

/-!
# The first visible character

The search for the first visible character that begins at or behind an offset counts rows and
columns from the start of the text. So it keeps an offset and a point, and what it passes over moves
both on: characters that begin too early, and blanks (`NoneVisible`). It ends at the point behind
all of these (`firstVisiblePoint?_append`), and finds nothing where they are the whole text
(`firstVisiblePoint?_eq_none`). Every text is of one of these two forms
(`noneVisible_or_exists_first`).

Main statement: `firstVisiblePoint?_isLeast`.
-/

namespace CodeAssist.Text

/-- No visible character begins at or behind the offset `start`. -/
def NoneVisible (start : Nat) (cs : List Char) : Prop :=
  ∀ a c b, cs = a ++ c :: b → start ≤ byteSize a → isBlank c = true

variable {start : Nat} {passed : List Char}

theorem noneVisible_nil : NoneVisible start [] := by
  rintro a c b hnil
  cases a <;> cases hnil

/-- The first character begins at the offset zero, and the other ones behind it. -/
theorem noneVisible_cons {c : Char} {cs : List Char} :
    NoneVisible start (c :: cs) ↔
      (start = 0 → isBlank c = true) ∧ NoneVisible (start - c.utf8Size) cs := by
  -- an offset within the rest is one character further in the whole
  constructor
  · intro h
    refine ⟨fun hstart => h [] c cs rfl (Nat.le_of_eq hstart), fun a d b hcs hle => ?_⟩
    refine h (c :: a) d b (by rw [hcs, List.cons_append]) ?_
    rw [byteSize_cons]
    omega
  · rintro ⟨hfirst, hothers⟩ a d b hcs hle
    cases a with
    | nil =>
      obtain ⟨rfl, -⟩ := List.cons.inj hcs
      exact hfirst (Nat.le_zero.1 hle)
    | cons c' a =>
      obtain ⟨rfl, rfl⟩ := List.cons.inj hcs
      rw [byteSize_cons] at hle
      exact hothers a d b rfl (by omega)

/-- Blanks behind an offset are not visible. -/
theorem noneVisible_append_blanks (before : List Char) {blanks : List Char}
    (h : ∀ b ∈ blanks, isBlank b = true) : NoneVisible (byteSize before) (before ++ blanks) := by
  induction before with
  | nil =>
    rintro a c b rfl -
    exact h c (List.mem_append_right _ List.mem_cons_self)
  | cons c before ih =>
    have hc := c.utf8Size_pos
    rw [List.cons_append, noneVisible_cons, byteSize_cons, Nat.add_sub_cancel_left]
    exact ⟨fun hzero => by omega, ih⟩

/-- **What is not visible is passed over.** -/
theorem visibleFrom?_append {offset : Nat} (h : NoneVisible (start - offset) passed) (p : Point)
    (rest : List Char) :
    visibleFrom? start offset p (passed ++ rest) =
      visibleFrom? start (offset + byteSize passed) (passed.foldl Point.next p) rest := by
  induction passed generalizing offset p with
  | nil => rfl
  | cons c passed ih =>
    rw [noneVisible_cons, Nat.sub_sub] at h
    obtain ⟨hc, hpassed⟩ := h
    -- the first character is blank if the search may stop at it
    have hnot : ¬ (decide (start ≤ offset) && !isBlank c) = true := by
      simp only [Bool.and_eq_true, decide_eq_true_eq, Bool.not_eq_true', not_and,
        Bool.not_eq_false]
      exact fun hle => hc (Nat.sub_eq_zero_of_le hle)
    rw [List.cons_append, visibleFrom?, if_neg hnot, ih hpassed, byteSize_cons, Nat.add_assoc]
    rfl

/-- **The first visible character** stands behind what is passed over. -/
theorem firstVisiblePoint?_append (h : NoneVisible start passed) (hstart : start ≤ byteSize passed)
    {c : Char} (hc : isBlank c = false) (rest : List Char) :
    firstVisiblePoint? (passed ++ c :: rest) start = some (endPoint passed) := by
  have hfound : (decide (start ≤ 0 + byteSize passed) && !isBlank c) = true := by
    simp [hc, hstart]
  rw [firstVisiblePoint?, visibleFrom?_append (by rwa [Nat.sub_zero]), visibleFrom?, if_pos hfound]
  rfl

/-- **No visible character** is found where all is passed over. -/
theorem firstVisiblePoint?_eq_none (h : NoneVisible start passed) :
    firstVisiblePoint? passed start = none := by
  have hall : visibleFrom? start 0 ⟨0, 0⟩ (passed ++ []) = none :=
    visibleFrom?_append (by rwa [Nat.sub_zero]) ⟨0, 0⟩ []
  rwa [List.append_nil] at hall

/-! ### The offset of the first visible character -/

variable {cs rest : List Char} {c : Char}

/-- A visible character begins at the offset. -/
def VisibleAt (cs : List Char) (n : Nat) : Prop :=
  ∃ a c b, cs = a ++ c :: b ∧ byteSize a = n ∧ isBlank c = false

theorem noneVisible_iff : NoneVisible start cs ↔ ¬ ∃ n, start ≤ n ∧ VisibleAt cs n := by
  constructor
  · rintro h ⟨_, hle, a, c, b, hcs, rfl, hc⟩
    exact Bool.false_ne_true (hc.symm.trans (h a c b hcs hle))
  · intro h a c b hcs hle
    by_contra hc
    exact h ⟨byteSize a, hle, a, c, b, hcs, rfl, Bool.eq_false_iff.2 hc⟩

/-- No visible character begins at or behind an offset, or there is a first one that does. -/
theorem noneVisible_or_exists_first (start : Nat) (cs : List Char) :
    NoneVisible start cs ∨ ∃ passed c rest, cs = passed ++ c :: rest ∧
      NoneVisible start passed ∧ start ≤ byteSize passed ∧ isBlank c = false := by
  induction cs generalizing start with
  | nil => exact .inl noneVisible_nil
  | cons c cs ih =>
    by_cases hc : start = 0 → isBlank c = true
    · -- the first character is passed over, so the offset comes nearer
      rcases ih (start - c.utf8Size) with hnone | ⟨passed, d, rest, rfl, hpassed, hle, hd⟩
      · exact .inl (noneVisible_cons.2 ⟨hc, hnone⟩)
      · refine .inr ⟨c :: passed, d, rest, rfl, noneVisible_cons.2 ⟨hc, hpassed⟩, ?_, hd⟩
        rw [byteSize_cons]
        omega
    -- the first character is at the start and is no blank, so it is the one
    · obtain ⟨rfl, hvisible⟩ := Classical.not_imp.1 hc
      exact .inr ⟨[], c, cs, rfl, noneVisible_nil, Nat.le_refl 0, Bool.eq_false_iff.2 hvisible⟩

/-- **Behind what is passed over** stands the least offset of a visible character. -/
theorem isLeast_byteSize_passed (h : NoneVisible start passed) (hstart : start ≤ byteSize passed)
    (hc : isBlank c = false) :
    IsLeast {n | start ≤ n ∧ VisibleAt (passed ++ c :: rest) n} (byteSize passed) := by
  refine ⟨⟨hstart, passed, c, rest, rfl, rfl, hc⟩, ?_⟩
  rintro _ ⟨hle, a, d, b, hcs, rfl, hd⟩
  -- an earlier visible character would stand among those that were passed over
  by_contra hlt
  obtain ⟨behind, rfl⟩ : a <+: passed :=
    isPrefix_of_byteSize_le ⟨d :: b, hcs.symm⟩ (List.prefix_append passed _)
      (Nat.le_of_not_le hlt)
  cases behind with
  | nil => exact hlt (by rw [List.append_nil])
  | cons e behind =>
    -- the character was passed over, but it is visible
    rw [List.append_assoc, List.append_cancel_left_eq, List.cons_append] at hcs
    obtain ⟨rfl, -⟩ := List.cons.inj hcs
    exact Bool.false_ne_true (hd.symm.trans (h a e behind rfl hle))

/-- No two points have the same offset. -/
theorem eq_of_offsetAt?_eq {p q : Point} {n : Nat} (hp : offsetAt? cs p = some n)
    (hq : offsetAt? cs q = some n) : p = q := by
  obtain ⟨a, a', hcs, hsize, rfl⟩ := exists_endPoint_of_offsetAt? hp
  obtain ⟨b, b', hcs', hsize', rfl⟩ := exists_endPoint_of_offsetAt? hq
  rw [eq_of_byteSize_eq ⟨a', hcs.symm⟩ ⟨b', hcs'.symm⟩ (hsize.trans hsize'.symm)]

/-- **The first visible character.** The search finds no point exactly where no visible character
begins at or behind the offset. Otherwise it finds the point of the least offset at which one does,
and no other point has that offset. -/
theorem firstVisiblePoint?_isLeast (cs : List Char) (start : Nat) :
    (firstVisiblePoint? cs start = none ↔ ¬ ∃ n, start ≤ n ∧ VisibleAt cs n) ∧
      ∀ p, firstVisiblePoint? cs start = some p ↔
        ∃ n, offsetAt? cs p = some n ∧ IsLeast {n | start ≤ n ∧ VisibleAt cs n} n := by
  rcases noneVisible_or_exists_first start cs with
    hnone | ⟨passed, c, rest, rfl, hpassed, hle, hc⟩
  -- nothing is visible behind the start, so both sides are empty
  · rw [firstVisiblePoint?_eq_none hnone]
    have hno := noneVisible_iff.1 hnone
    refine ⟨iff_of_true rfl hno, fun p => iff_of_false (Option.some_ne_none p).symm ?_⟩
    rintro ⟨n, -, hleast⟩
    exact hno ⟨n, hleast.1⟩
  · have hleast : IsLeast {n | start ≤ n ∧ VisibleAt (passed ++ c :: rest) n} (byteSize passed) :=
      isLeast_byteSize_passed hpassed hle hc
    have hoffset : offsetAt? (passed ++ c :: rest) (endPoint passed) = some (byteSize passed) :=
      offsetAt?_endPoint passed (List.append_ne_nil_of_right_ne_nil _ (List.cons_ne_nil c rest))
    rw [firstVisiblePoint?_append hpassed hle hc]
    -- the least offset is the one that was found, and a point has one offset only
    refine ⟨iff_of_false (Option.some_ne_none _) fun hno => hno ⟨_, hleast.1⟩, fun p => ?_⟩
    constructor
    · rintro ⟨⟩
      exact ⟨_, hoffset, hleast⟩
    · rintro ⟨n, hp, hn⟩
      obtain rfl := hleast.unique hn
      rw [eq_of_offsetAt?_eq hp hoffset]

/-- The offset lies within a blank of two bytes. Behind it come a return, a break and a blank of
three bytes. -/
example : firstVisiblePoint? "a\u00a0\r\n\u3000é".toList 2 = some ⟨1, 3⟩ := by decide

end CodeAssist.Text
