import CodeAssist.Proofs.Text.CommonRuns
import Mathlib.Data.List.Flatten
import Mathlib.Data.List.Nodup
import Mathlib.Data.List.SplitBy

/-!
# What the groups of common lines are

The groups of common lines are made in two steps. First each target line that occurs in the source
is matched with the first source line of greatest weight (`mem_matchedLines_iff`), and then the
matches are cut into groups wherever a source line does not follow the one before it
(`together_iff`).

Both steps go from one target line to the next, so one after the other the groups are increasing
numbers of target lines (`flatten_commonLines_sublist`). Every member of a group occurs in the
source (`exists_line_of_mem_group`), because only a common run gives a pair of lines a weight. Two
neighbours of a group are matched with source lines that follow each other
(`exists_matches_of_neighbours`); that they follow each other in the target is *not* asked for.

Main statement: `commonLines_by_runs`, which determines the groups by the runs of equal lines alone.
-/

namespace CodeAssist.Text

/-! ### The greatest weight -/

/-- All weights are zero where there is no greatest one. -/
theorem eq_zero_of_heaviest? {ws : List Nat} (h : heaviest? ws = none) : ∀ w ∈ ws, w = 0 := by
  induction ws with
  | nil => simp
  | cons first ws ih =>
    rw [heaviest?] at h
    split at h
    · split at h <;> cases h
    · next hrest =>
      split at h
      · next hzero => simpa [hzero] using ih hrest
      · cases h

/-- The heaviest position has a weight, every weight behind it is at most as great, and every one
before it is smaller. -/
theorem heaviest?_spec {ws : List Nat} {i w : Nat} (h : heaviest? ws = some (i, w)) :
    (ws[i]? = some w ∧ w ≠ 0) ∧
      ∀ i' w', ws[i']? = some w' → w' < w ∨ w' = w ∧ i ≤ i' := by
  induction ws generalizing i w with
  | nil => cases h
  | cons first ws ih =>
    rw [heaviest?] at h
    split at h
    -- the weights behind have a heaviest one, which the first weight takes over from at equality
    · next j best hrest =>
      obtain ⟨⟨hbest, hne⟩, hgreatest⟩ := ih hrest
      split at h
      · next hle =>
        cases h
        refine ⟨⟨rfl, fun hzero => hne (Nat.le_zero.1 (hzero ▸ hle))⟩, fun i' w' hw' => ?_⟩
        cases i' with
        | zero => exact .inr ⟨(Option.some.inj hw').symm, Nat.le_refl 0⟩
        | succ i' =>
          have hle' : w' ≤ best := by
            rcases hgreatest i' w' hw' with hlt | ⟨rfl, -⟩
            · exact Nat.le_of_lt hlt
            · exact Nat.le_refl _
          rcases Nat.lt_or_eq_of_le (Nat.le_trans hle' hle) with hlt | heq
          · exact .inl hlt
          · exact .inr ⟨heq, Nat.zero_le _⟩
      · next hnot =>
        cases h
        refine ⟨⟨hbest, hne⟩, fun i' w' hw' => ?_⟩
        cases i' with
        | zero => exact .inl (Option.some.inj hw' ▸ Nat.not_le.1 hnot)
        | succ i' =>
          exact (hgreatest i' w' hw').imp_right fun ⟨heq, hle⟩ => ⟨heq, Nat.succ_le_succ hle⟩
    -- no weight behind is above zero, so the first one stands alone
    · next hrest =>
      split at h
      · cases h
      · next hne =>
        cases h
        refine ⟨⟨rfl, hne⟩, fun i' w' hw' => ?_⟩
        cases i' with
        | zero => exact .inr ⟨(Option.some.inj hw').symm, Nat.le_refl 0⟩
        | succ i' =>
          have hzero := eq_zero_of_heaviest? hrest w' (List.mem_of_getElem? hw')
          exact .inl (hzero ▸ Nat.pos_of_ne_zero hne)

/-! ### Matches -/

section Matches

variable {α : Type} [BEq α]

/-- The source line `i` is the first one of greatest weight for the target line `j`. -/
def IsMatch (source target : List α) (j i : Nat) : Prop :=
  ∃ w, PairWeight source target i j w ∧
    ∀ i' w', PairWeight source target i' j w' → w' < w ∨ w' = w ∧ i ≤ i'

variable {source target : List α} {i j : Nat}

/-- A line is matched with one line only. -/
theorem IsMatch.unique {i' : Nat} (h : IsMatch source target j i)
    (h' : IsMatch source target j i') : i = i' := by
  obtain ⟨w, hw, hgreatest⟩ := h
  obtain ⟨w', hw', hgreatest'⟩ := h'
  have hle := hgreatest i' w' hw'
  have hle' := hgreatest' i w hw
  omega

/-- Matched lines are equal. -/
theorem IsMatch.equalAt (h : IsMatch source target j i) : equalAt source target i j = true := by
  obtain ⟨w, hw, -⟩ := h
  exact hw.equalAt

/-- Every target line has a column. -/
theorem length_columnsOf (width : Nat) (rows : List (List Nat)) :
    (columnsOf width rows).length = width := by
  induction width generalizing rows with
  | zero => rfl
  | succ width ih => exact congrArg (· + 1) (ih _)

/-- A target line is matched with the heaviest position of its column. -/
theorem mem_matchedLines_iff_heaviest? :
    (j, i) ∈ matchedLines source target ↔
      ∃ column w, (columnsOf target.length (weightTable source target))[j]? = some column ∧
        heaviest? column = some (i, w) := by
  simp only [matchedLines, List.mem_filterMap, Option.map_eq_some_iff]
  constructor
  · rintro ⟨⟨column, j'⟩, hcolumn, ⟨i', w⟩, hheaviest, hpair⟩
    obtain ⟨rfl, rfl⟩ := Prod.mk.inj hpair
    exact ⟨column, w, List.mem_zipIdx_iff_getElem?.1 hcolumn, hheaviest⟩
  · rintro ⟨column, w, hcolumn, hheaviest⟩
    exact ⟨(column, j), List.mem_zipIdx_iff_getElem?.2 hcolumn, (i, w), hheaviest, rfl⟩

/-- **What is matched** is each target line with the first source line of greatest weight. -/
theorem mem_matchedLines_iff :
    (j, i) ∈ matchedLines source target ↔ IsMatch source target j i := by
  rw [mem_matchedLines_iff_heaviest?]
  constructor
  · rintro ⟨column, w, hcolumn, hheaviest⟩
    have hj : j < target.length := by
      have hlt := (List.getElem?_eq_some_iff.1 hcolumn).1
      rwa [length_columnsOf] at hlt
    obtain ⟨column', hcolumn', hweights⟩ := exists_column source hj
    -- the column is the one that was found, so its weights are those of the pairs
    obtain rfl := Option.some.inj (hcolumn.symm.trans hcolumn')
    obtain ⟨hw, hgreatest⟩ := heaviest?_spec hheaviest
    exact ⟨w, (hweights i w).1 hw, fun i' w' hw' => hgreatest i' w' ((hweights i' w').2 hw').1⟩
  · intro hmatch
    obtain ⟨s, t, hs, ht, -⟩ := exists_lines_of_equalAt hmatch.equalAt
    obtain ⟨column, hcolumn, hweights⟩ := exists_column source
      (List.getElem?_eq_some_iff.1 ht).1
    obtain ⟨w, hw, hgreatest⟩ := hmatch
    obtain ⟨hcell, hne⟩ := (hweights i w).2 hw
    cases hheaviest : heaviest? column with
    | none => exact absurd (eq_zero_of_heaviest? hheaviest w (List.mem_of_getElem? hcell)) hne
    | some best =>
      -- both are the first of greatest weight
      obtain ⟨i', w'⟩ := best
      obtain ⟨hw', hgreatest'⟩ := heaviest?_spec hheaviest
      have hmatch' : IsMatch source target j i' :=
        ⟨w', (hweights i' w').1 hw', fun k v hv => hgreatest' k v ((hweights k v).2 hv).1⟩
      obtain rfl := hmatch'.unique ⟨w, hw, hgreatest⟩
      exact ⟨column, w', hcolumn, hheaviest⟩

/-- **A line that occurs in the source** is matched. -/
theorem exists_isMatch_iff :
    (∃ i, IsMatch source target j i) ↔ ∃ i, equalAt source target i j = true := by
  constructor
  · rintro ⟨i, hmatch⟩
    exact ⟨i, hmatch.equalAt⟩
  · rintro ⟨i, hequal⟩
    obtain ⟨s, t, hs, ht, -⟩ := exists_lines_of_equalAt hequal
    have hi := (List.getElem?_eq_some_iff.1 hs).1
    have hj := (List.getElem?_eq_some_iff.1 ht).1
    obtain ⟨column, hcolumn, hweights⟩ := exists_column source hj
    -- the pair has a weight, so its column has a greatest one
    have hrun : 1 ≤ runLength source target i j := by
      rw [le_runLength_iff hi hj]
      intro k hk
      obtain rfl := Nat.lt_one_iff.1 hk
      exact ⟨Nat.zero_le i, Nat.zero_le j, hequal⟩
    have hne : weightAt source target i j ≠ 0 := weightAt_ne_zero hrun
    obtain ⟨hcell, -⟩ := (hweights i _).2 ((pairWeight_iff hi hj).2 ⟨rfl, hne⟩)
    cases hheaviest : heaviest? column with
    | none => exact absurd (eq_zero_of_heaviest? hheaviest _ (List.mem_of_getElem? hcell)) hne
    | some best =>
      exact ⟨best.1, mem_matchedLines_iff.1
        (mem_matchedLines_iff_heaviest?.2 ⟨column, best.2, hcolumn, hheaviest⟩)⟩

/-- Numbering some elements and leaving some out leaves out numbers. -/
theorem filterMap_zipIdx_sublist {β γ : Type} (f : β → Option γ) (l : List β) (start : Nat) :
    (((l.zipIdx start).filterMap fun (b, n) => (f b).map (n, ·)).map Prod.fst).Sublist
      (List.range' start l.length) := by
  induction l generalizing start with
  | nil => exact List.Sublist.refl _
  | cons b l ih =>
    cases hb : f b with
    | none => simpa [List.range'_succ, hb] using (ih (start + 1)).cons start
    | some c => simpa [List.range'_succ, hb] using (ih (start + 1)).cons_cons start

/-- Matches are in the order of their target lines. -/
theorem map_fst_matchedLines_sublist (source target : List α) :
    ((matchedLines source target).map Prod.fst).Sublist (List.range target.length) := by
  have h := filterMap_zipIdx_sublist (fun column => (heaviest? column).map Prod.fst)
    (columnsOf target.length (weightTable source target)) 0
  rw [length_columnsOf, ← List.range_eq_range'] at h
  simpa only [matchedLines, Option.map_map, Function.comp_def] using h

end Matches

/-! ### Cutting into groups -/

section Cutting

variable {β : Type} {r : β → β → Bool} {groups : List (List β)}

/-- **Neighbours are cut apart exactly where they are unrelated.** The groups are chains of related
elements, and the last element of a group is unrelated to the first one of the next group. -/
theorem together_iff (hnonempty : [] ∉ groups)
    (hchain : ∀ group ∈ groups, group.IsChain fun x y => r x y = true)
    (hends : groups.IsChain fun g h => ∃ hg hh, r (g.getLast hg) (h.head hh) = false)
    (hnodup : groups.flatten.Nodup) {k : Nat} {x y : β} (hx : groups.flatten[k]? = some x)
    (hy : groups.flatten[k + 1]? = some y) :
    (∃ group ∈ groups, x ∈ group ∧ y ∈ group) ↔ r x y = true := by
  induction groups generalizing k with
  | nil => cases hx
  | cons group groups ih =>
    rw [List.flatten_cons] at hx hy hnodup
    obtain ⟨-, hnodup', hdisjoint⟩ := List.nodup_append'.1 hnodup
    rcases Nat.lt_trichotomy (k + 1) group.length with hlt | heq | hgt
    · -- both are in the first group
      rw [List.getElem?_append_left (by omega)] at hx
      rw [List.getElem?_append_left hlt] at hy
      refine iff_of_true ⟨group, List.mem_cons_self, List.mem_of_getElem? hx,
        List.mem_of_getElem? hy⟩ ?_
      obtain ⟨-, rfl⟩ := List.getElem?_eq_some_iff.1 hx
      obtain ⟨-, rfl⟩ := List.getElem?_eq_some_iff.1 hy
      exact List.isChain_iff_getElem.1 (hchain group List.mem_cons_self) k hlt
    · -- the first group ends between them
      rw [List.getElem?_append_left (by omega)] at hx
      rw [List.getElem?_append_right (Nat.le_of_eq heq.symm), heq, Nat.sub_self] at hy
      refine iff_of_false ?_ ?_
      · rintro ⟨g, hg, hxg, hyg⟩
        rcases List.mem_cons.1 hg with rfl | hg
        · exact hdisjoint hyg (List.mem_of_getElem? hy)
        · exact hdisjoint (List.mem_of_getElem? hx) (List.mem_flatten.2 ⟨g, hg, hxg⟩)
      · match groups, hnonempty, hends, hy with
        | [] :: _, hnonempty, _, _ =>
          exact absurd (List.mem_cons_of_mem _ List.mem_cons_self) hnonempty
        | (first :: others) :: rest, _, hends, hy =>
          obtain ⟨hgroup, _, hunrelated⟩ := (List.isChain_cons_cons.1 hends).1
          obtain rfl : first = y := Option.some.inj hy
          have hlast : group.getLast hgroup = x := by
            rw [List.getLast_eq_iff_getLast?_eq_some, List.getLast?_eq_getElem?, ← heq]
            exact hx
          rw [← hlast]
          exact Bool.eq_false_iff.1 hunrelated
    · -- both are behind the first group
      rw [List.getElem?_append_right (by omega)] at hx hy
      have hsub : k + 1 - group.length = k - group.length + 1 := by omega
      rw [hsub] at hy
      rw [← ih (fun h => hnonempty (List.mem_cons_of_mem _ h))
        (fun g hg => hchain g (List.mem_cons_of_mem _ hg)) hends.tail hnodup' hx hy]
      have hnot : x ∉ group := fun h => hdisjoint h (List.mem_of_getElem? hx)
      simp [hnot]

end Cutting

/-! ### Groups -/

section Groups

variable {α : Type} [BEq α] {source target : List α} {group : List Nat}

/-- One after the other, the groups are the matched lines. -/
theorem flatten_commonLines (source target : List α) :
    (commonLines source target).flatten = (matchedLines source target).map Prod.fst := by
  rw [commonLines, ← List.map_flatten, List.flatten_splitBy]

/-- **Common lines are in order.** One after the other, the groups are increasing numbers of target
lines. -/
theorem flatten_commonLines_sublist (source target : List α) :
    (commonLines source target).flatten.Sublist (List.range target.length) := by
  rw [flatten_commonLines]
  exact map_fst_matchedLines_sublist source target

theorem pairwise_flatten_commonLines (source target : List α) :
    (commonLines source target).flatten.Pairwise (· < ·) :=
  List.pairwise_lt_range.sublist (flatten_commonLines_sublist source target)

/-- No group of common lines is empty. -/
theorem nil_notMem_commonLines (source target : List α) : [] ∉ commonLines source target := by
  intro h
  obtain ⟨group, hgroup, hnil⟩ := List.mem_map.1 h
  exact List.ne_nil_of_mem_splitBy hgroup (List.map_eq_nil_iff.1 hnil)

/-- A group consists of matches that follow each other in the source. -/
theorem exists_matches_of_mem_commonLines (h : group ∈ commonLines source target) :
    ∃ matched : List (Nat × Nat), group = matched.map Prod.fst ∧
      (∀ pair ∈ matched, pair ∈ matchedLines source target) ∧
      matched.IsChain fun a b => b.2 = a.2 + 1 := by
  obtain ⟨matched, hmatched, rfl⟩ := List.mem_map.1 h
  refine ⟨matched, rfl, fun pair hpair => ?_, ?_⟩
  · rw [← List.flatten_splitBy (fun a b : Nat × Nat => b.2 == a.2 + 1) (matchedLines source target)]
    exact List.mem_flatten.2 ⟨matched, hmatched, hpair⟩
  · exact (List.isChain_of_mem_splitBy hmatched).imp fun _ _ heq => beq_iff_eq.1 heq

/-- Two neighbours of a group are matched with source lines that follow each other. -/
theorem exists_matches_of_neighbours (h : group ∈ commonLines source target) {a b : Nat}
    (hab : [a, b] <:+: group) :
    ∃ p, IsMatch source target a p ∧ IsMatch source target b (p + 1) := by
  obtain ⟨matched, rfl, hmatched, hchain⟩ := exists_matches_of_mem_commonLines h
  -- the two come from two neighbouring matches
  obtain ⟨pairs, hpairs, hfst⟩ := List.infix_map_iff.1 hab
  match pairs, hfst with
  | [(_, p), (_, q)], rfl =>
    have hnext : q = p + 1 := by simpa using hchain.infix hpairs
    refine ⟨p, mem_matchedLines_iff.1 (hmatched _ (hpairs.subset List.mem_cons_self)), ?_⟩
    rw [← hnext]
    exact mem_matchedLines_iff.1
      (hmatched _ (hpairs.subset (List.mem_cons_of_mem _ List.mem_cons_self)))

/-- **What is common** are the target lines that occur in the source. -/
theorem mem_flatten_commonLines_iff {j : Nat} :
    j ∈ (commonLines source target).flatten ↔ ∃ i, equalAt source target i j = true := by
  rw [flatten_commonLines, ← exists_isMatch_iff, List.mem_map]
  constructor
  · rintro ⟨⟨j, i⟩, hmatch, rfl⟩
    exact ⟨i, mem_matchedLines_iff.1 hmatch⟩
  · rintro ⟨i, hmatch⟩
    exact ⟨(j, i), mem_matchedLines_iff.2 hmatch, rfl⟩

/-- **Neighbours are in one group** exactly where their source lines follow each other. -/
theorem exists_group_iff {k a b p q : Nat} (ha : (matchedLines source target)[k]? = some (a, p))
    (hb : (matchedLines source target)[k + 1]? = some (b, q)) :
    (∃ group ∈ commonLines source target, a ∈ group ∧ b ∈ group) ↔ q = p + 1 := by
  let follows := fun x y : Nat × Nat => y.2 == x.2 + 1
  let groups := (matchedLines source target).splitBy follows
  have hflatten : groups.flatten = matchedLines source target := List.flatten_splitBy _ _
  have hnodup : groups.flatten.Nodup := by
    have hfst := List.nodup_range.sublist (map_fst_matchedLines_sublist source target)
    rw [hflatten]
    exact hfst.of_map Prod.fst
  -- a target line is in a group together with its only match
  have hmem : ∀ g ∈ groups, ∀ j i, (j, i) ∈ matchedLines source target →
      (j ∈ g.map Prod.fst ↔ (j, i) ∈ g) := by
    intro g hg j i hmatch
    constructor
    · intro hj
      obtain ⟨⟨j, i'⟩, hpair, rfl⟩ := List.mem_map.1 hj
      have hmatch' : (j, i') ∈ matchedLines source target :=
        hflatten ▸ List.mem_flatten.2 ⟨g, hg, hpair⟩
      rwa [(mem_matchedLines_iff.1 hmatch).unique (mem_matchedLines_iff.1 hmatch')]
    · intro hpair
      exact List.mem_map.2 ⟨(j, i), hpair, rfl⟩
  have htogether := together_iff (List.nil_notMem_splitBy follows _)
    (fun g hg => List.isChain_of_mem_splitBy hg) (List.isChain_getLast_head_splitBy follows _)
    hnodup (hflatten ▸ ha) (hflatten ▸ hb)
  rw [← beq_iff_eq, ← htogether]
  constructor
  · rintro ⟨group, hgroup, hmema, hmemb⟩
    obtain ⟨g, hg, rfl⟩ := List.mem_map.1 hgroup
    exact ⟨g, hg, (hmem g hg a p (List.mem_of_getElem? ha)).1 hmema,
      (hmem g hg b q (List.mem_of_getElem? hb)).1 hmemb⟩
  · rintro ⟨g, hg, hmema, hmemb⟩
    exact ⟨g.map Prod.fst, List.mem_map.2 ⟨g, hg, rfl⟩,
      (hmem g hg a p (List.mem_of_getElem? ha)).2 hmema,
      (hmem g hg b q (List.mem_of_getElem? hb)).2 hmemb⟩

/-- **Common lines, by the runs of equal lines.** The groups contain, one after the other and in
increasing order, the target lines that equal some source line. Each of them is matched with the
first source line of greatest weight, and two that come one after the other are in one group exactly
where the source line of the later one comes next to that of the earlier one. -/
theorem commonLines_by_runs (source target : List α) :
    (commonLines source target).flatten.Pairwise (· < ·) ∧
      (∀ j, j ∈ (commonLines source target).flatten ↔
        ∃ i, equalAt source target i j = true) ∧
      [] ∉ commonLines source target ∧
      (∀ j i, (j, i) ∈ matchedLines source target ↔ IsMatch source target j i) ∧
      (∀ j ∈ (commonLines source target).flatten, ∃ i, IsMatch source target j i) ∧
      ∀ k a b p q, (commonLines source target).flatten[k]? = some a →
        (commonLines source target).flatten[k + 1]? = some b →
        IsMatch source target a p → IsMatch source target b q →
        ((∃ group ∈ commonLines source target, a ∈ group ∧ b ∈ group) ↔ q = p + 1) := by
  -- the place of a target line among the matches, where it stands with its only match
  have hplace : ∀ k a p : Nat, (commonLines source target).flatten[k]? = some a →
      IsMatch source target a p → (matchedLines source target)[k]? = some (a, p) := by
    intro k a p hk hmatch
    rw [flatten_commonLines, List.getElem?_map] at hk
    obtain ⟨⟨a, p'⟩, hpair, rfl⟩ := Option.map_eq_some_iff.1 hk
    rwa [hmatch.unique (mem_matchedLines_iff.1 (List.mem_of_getElem? hpair))]
  refine ⟨List.pairwise_lt_range.sublist (flatten_commonLines_sublist source target),
    fun j => mem_flatten_commonLines_iff, nil_notMem_commonLines source target,
    fun j i => mem_matchedLines_iff, fun j hj => ?_, fun k a b p q ha hb hmatcha hmatchb => ?_⟩
  · exact exists_isMatch_iff.2 (mem_flatten_commonLines_iff.1 hj)
  · exact exists_group_iff (hplace k a p ha hmatcha) (hplace (k + 1) b q hb hmatchb)

/-- The first of the two target lines is matched with the later one of two source lines, because the
next lines are equal there. So both are in one group. -/
theorem commonLines_by_runs_laterRun :
    IsMatch ['x', 'a', 'x', 'b'] ['x', 'b'] 0 2 ∧ IsMatch ['x', 'a', 'x', 'b'] ['x', 'b'] 1 3 ∧
      ∃ group ∈ commonLines ['x', 'a', 'x', 'b'] ['x', 'b'], 0 ∈ group ∧ 1 ∈ group := by
  obtain ⟨-, -, -, hmatch, -, htogether⟩ :=
    commonLines_by_runs ['x', 'a', 'x', 'b'] ['x', 'b']
  have hfirst := (hmatch 0 2).1 (by decide)
  have hsecond := (hmatch 1 3).1 (by decide)
  exact ⟨hfirst, hsecond,
    (htogether 0 0 1 2 3 (by decide) (by decide) hfirst hsecond).2 rfl⟩

end Groups

/-! ### Groups of lines that are the same -/

section Same

variable {α : Type} [BEq α] [LawfulBEq α] {source target : List α} {group : List Nat}

/-- **Matched lines are the same.** -/
theorem exists_line_of_mem_matchedLines {j p : Nat} (h : (j, p) ∈ matchedLines source target) :
    ∃ line, target[j]? = some line ∧ source[p]? = some line := by
  obtain ⟨s, t, hs, ht, heq⟩ := exists_lines_of_equalAt (mem_matchedLines_iff.1 h).equalAt
  exact ⟨t, ht, (eq_of_beq heq) ▸ hs⟩

/-- Every member of a group is a line that occurs in the source. -/
theorem exists_line_of_mem_group (h : group ∈ commonLines source target) {j : Nat}
    (hj : j ∈ group) : ∃ line ∈ source, target[j]? = some line := by
  obtain ⟨matched, rfl, hmatched, -⟩ := exists_matches_of_mem_commonLines h
  obtain ⟨⟨j, p⟩, hpair, rfl⟩ := List.mem_map.1 hj
  obtain ⟨line, htarget, hsource⟩ := exists_line_of_mem_matchedLines (hmatched _ hpair)
  exact ⟨line, List.mem_of_getElem? hsource, htarget⟩

/-- **Neighbours of a group** repeat two source lines that follow each other. -/
theorem exists_lines_of_neighbours (h : group ∈ commonLines source target) {a b : Nat}
    (hab : [a, b] <:+: group) :
    ∃ p first second, source[p]? = some first ∧ source[p + 1]? = some second ∧
      target[a]? = some first ∧ target[b]? = some second := by
  obtain ⟨p, ha, hb⟩ := exists_matches_of_neighbours h hab
  obtain ⟨first, hfirst, hp⟩ := exists_line_of_mem_matchedLines (mem_matchedLines_iff.2 ha)
  obtain ⟨second, hsecond, hq⟩ := exists_line_of_mem_matchedLines (mem_matchedLines_iff.2 hb)
  exact ⟨p, first, second, hp, hq, hfirst, hsecond⟩

end Same

end CodeAssist.Text
