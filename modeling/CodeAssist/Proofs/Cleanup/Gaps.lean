import CodeAssist.Proofs.Cleanup.Repeats
import CodeAssist.Proofs.Text.Neighbours
import Mathlib.Data.List.Pairwise

/-!
# Lines that are left out without being repeats

A dropped group takes away all lines from its first to its last member. Its members repeat lines
before the break, but two neighbours of a group need only follow each other *before* the break: the
reply may have other lines between them. Such a gap goes with the group.

So a line that the context lacks is left out exactly where it stands in a gap of a dropped group
(`unrepeated_left_out_iff`). One half is `mem_leftOut_iff`, which splits the reach of a group into
members and gaps; the other is that every member of a group is a repeat. A common line, on the other
hand, never stands in a gap, so its own group decides about it (`mem_leftOut_iff_of_mem_group`).
-/

namespace CodeAssist.Cleanup

/-! ### Gaps of a group -/

/-- A number that stands between two neighbours of a group. -/
def InGap (group : List Nat) (i : Nat) : Prop :=
  ∃ a b, [a, b] <:+: group ∧ a < i ∧ i < b

section Reach

variable {group : List Nat} {first last i : Nat}

/-- Members of an increasing group stand between its ends. -/
theorem ends_of_mem (hgroup : group.Pairwise (· < ·)) (hfirst : group.head? = some first)
    (hlast : group.getLast? = some last) (hi : i ∈ group) : first ≤ i ∧ i ≤ last := by
  have hle : group.Pairwise (· ≤ ·) := hgroup.imp Nat.le_of_lt
  have hhead := hle.rel_head hi
  have hend := hle.rel_getLast hi
  rw [List.head_eq_iff_head?_eq_some _ |>.2 hfirst] at hhead
  rw [List.getLast_eq_iff_getLast?_eq_some _ |>.2 hlast] at hend
  exact ⟨hhead, hend⟩

/-- **The reach of a group.** Between its ends stand its members and its gaps. -/
theorem between_ends_iff (hgroup : group.Pairwise (· < ·)) (hfirst : group.head? = some first)
    (hlast : group.getLast? = some last) : first ≤ i ∧ i ≤ last ↔ i ∈ group ∨ InGap group i := by
  constructor
  -- the group's own recursion: the first gap is before the second member, the others are the rest's
  · induction group generalizing first with
    | nil => cases hfirst
    | cons a rest ih =>
      rintro ⟨hle, hle'⟩
      obtain rfl := Option.some.inj hfirst
      rcases Nat.eq_or_lt_of_le hle with rfl | hlt
      · exact .inl List.mem_cons_self
      cases rest with
      | nil =>
        obtain rfl := Option.some.inj hlast
        -- a single member is its own last one
        exact absurd hle' (Nat.not_le.2 hlt)
      | cons b rest =>
        rcases Nat.lt_or_ge i b with hb | hb
        · -- before the next member, so in the first gap
          exact .inr ⟨a, b, ⟨[], rest, rfl⟩, hlt, hb⟩
        · rcases ih hgroup.of_cons rfl (by rwa [List.getLast?_cons_cons] at hlast) ⟨hb, hle'⟩ with
            hmem | ⟨c, d, hpair, hc, hd⟩
          · exact .inl (List.mem_cons_of_mem a hmem)
          · exact .inr ⟨c, d, List.infix_cons hpair, hc, hd⟩
  · rintro (hmem | ⟨a, b, hpair, ha, hb⟩)
    · exact ends_of_mem hgroup hfirst hlast hmem
    -- the two members around the gap lie between the ends themselves
    · obtain ⟨hle, -⟩ := ends_of_mem hgroup hfirst hlast (hpair.subset List.mem_cons_self)
      obtain ⟨-, hle'⟩ := ends_of_mem hgroup hfirst hlast
        (hpair.subset (List.mem_cons_of_mem a List.mem_cons_self))
      omega

end Reach

/-! ### Dropped groups -/

variable {settings : RepeatSettings} {before after : List (List Char)} {i : Nat}

/-- The line behind the break that repeats the one before it, where such lines are dropped. -/
def echo? (settings : RepeatSettings) (before after : List (List Char)) : Option Nat :=
  if settings.dropEchoedLine then
    echoedLine? (before.map Text.trim) (after.map Text.trim) settings.echoedLineMinChars
  else none

/-- The groups of common lines that are dropped. -/
def droppedGroups (settings : RepeatSettings) (before after : List (List Char)) :
    List (List Nat) :=
  (Text.commonLines (before.map Text.trim) (after.map Text.trim)).filter fun group =>
    isDropped settings (echo? settings before after) group
      ((after.take (group.getLast?.getD 0 + 1)).drop (group.head?.getD 0))

/-- The members of a group are lines behind the break. -/
theorem lt_length_of_mem_group {group : List Nat}
    (hgroup : group ∈ Text.commonLines (before.map Text.trim) (after.map Text.trim))
    (hi : i ∈ group) : i < after.length := by
  have hrange := (Text.flatten_commonLines_sublist _ _).subset
    (List.mem_flatten.2 ⟨group, hgroup, hi⟩)
  rwa [List.mem_range, List.length_map] at hrange

/-- A dropped group is a group of common lines. -/
theorem mem_commonLines_of_mem_droppedGroups {group : List Nat}
    (h : group ∈ droppedGroups settings before after) :
    group ∈ Text.commonLines (before.map Text.trim) (after.map Text.trim) :=
  List.mem_of_mem_filter h

/-- A dropped group is increasing. -/
theorem pairwise_of_mem_droppedGroups {group : List Nat}
    (h : group ∈ droppedGroups settings before after) : group.Pairwise (· < ·) :=
  Text.pairwise_of_mem_commonLines (mem_commonLines_of_mem_droppedGroups h)

/-- The dropped spans are the ends of the dropped groups. -/
theorem mem_droppedSpans_iff {first last : Nat} :
    (first, last) ∈ droppedSpans settings before after ↔
      ∃ group ∈ droppedGroups settings before after,
        group.head? = some first ∧ group.getLast? = some last := by
  have hspans : droppedSpans settings before after =
      spansOf (isDropped settings (echo? settings before after)) after
        (Text.commonLines (before.map Text.trim) (after.map Text.trim)) := rfl
  rw [hspans, mem_spansOf_iff]
  constructor
  · rintro ⟨group, hgroup, hfirst, hlast, hdropped⟩
    exact ⟨group, List.mem_filter.2 ⟨hgroup, by simpa [hfirst, hlast] using hdropped⟩,
      hfirst, hlast⟩
  · rintro ⟨group, hgroup, hfirst, hlast⟩
    obtain ⟨hcommon, hdropped⟩ := List.mem_filter.1 hgroup
    exact ⟨group, hcommon, hfirst, hlast, by simpa [hfirst, hlast] using hdropped⟩

/-! ### Lines that are left out -/

/-- The numbers of the lines behind the break that are left out. -/
def leftOut (settings : RepeatSettings) (before after : List (List Char)) : List Nat :=
  (List.range after.length).filter fun i => !isOutside (droppedSpans settings before after) i

/-- The lines that are kept are those that are not left out. -/
theorem keepOutside_droppedSpans (settings : RepeatSettings) (before after : List (List Char)) :
    keepOutside (droppedSpans settings before after) after =
      (after.zipIdx.filter fun (_, i) => i ∉ leftOut settings before after).map Prod.fst := by
  refine congrArg (List.map Prod.fst) (List.filter_congr fun entry hentry => ?_)
  have hlt : entry.2 < after.length := by
    simpa using List.snd_lt_add_of_mem_zipIdx hentry
  change isOutside (droppedSpans settings before after) entry.2 = _
  simp [leftOut, hlt]

/-- **What is left out** are the members and the gaps of the dropped groups. -/
theorem mem_leftOut_iff :
    i ∈ leftOut settings before after ↔
      ∃ group ∈ droppedGroups settings before after, i ∈ group ∨ InGap group i := by
  simp only [leftOut, isOutside, List.mem_filter, List.mem_range, Bool.not_not, List.any_eq_true,
    Bool.and_eq_true, decide_eq_true_eq]
  constructor
  · rintro ⟨-, ⟨first, last⟩, hspan, hends⟩
    obtain ⟨group, hgroup, hfirst, hlast⟩ := mem_droppedSpans_iff.1 hspan
    exact ⟨group, hgroup,
      (between_ends_iff (pairwise_of_mem_droppedGroups hgroup) hfirst hlast).1 hends⟩
  · rintro ⟨group, hgroup, hreach⟩
    have hcommon := mem_commonLines_of_mem_droppedGroups hgroup
    have hne : group ≠ [] := fun hnil => Text.nil_notMem_commonLines _ _ (hnil ▸ hcommon)
    -- a group has members, so it has both ends
    have hfirst := List.head?_eq_some_head hne
    have hlast := List.getLast?_eq_some_getLast hne
    have hends := (between_ends_iff (pairwise_of_mem_droppedGroups hgroup) hfirst hlast).2 hreach
    -- the last member is a line behind the break, so what stands before it is one
    have hbound := lt_length_of_mem_group hcommon (List.getLast_mem hne)
    exact ⟨Nat.lt_of_le_of_lt hends.2 hbound, _, mem_droppedSpans_iff.2
      ⟨group, hgroup, hfirst, hlast⟩, hends⟩

/-- A common line is left out only together with its own group. -/
theorem mem_leftOut_iff_of_mem_group {group : List Nat}
    (hgroup : group ∈ Text.commonLines (before.map Text.trim) (after.map Text.trim))
    (hi : i ∈ group) :
    i ∈ leftOut settings before after ↔ group ∈ droppedGroups settings before after := by
  rw [mem_leftOut_iff]
  refine ⟨?_, fun hdropped => ⟨group, hdropped, .inl hi⟩⟩
  rintro ⟨other, hdropped, hi' | ⟨a, b, hab, ha, hb⟩⟩
  · have hother := mem_commonLines_of_mem_droppedGroups hdropped
    rwa [Text.group_unique hgroup hi hother hi']
  · -- no common line stands in a gap
    have hbetween := Text.le_or_le_of_neighbours
      (mem_commonLines_of_mem_droppedGroups hdropped) hab (List.mem_flatten.2 ⟨group, hgroup, hi⟩)
    omega

/-! ### What a group reaches over -/

/-- The lines from the first to the last member of a group. -/
def linesThrough (after : List (List Char)) (group : List Nat) : List (List Char) :=
  (after.take (group.getLast?.getD 0 + 1)).drop (group.head?.getD 0)

theorem mem_droppedGroups_iff {group : List Nat}
    (hgroup : group ∈ Text.commonLines (before.map Text.trim) (after.map Text.trim)) :
    group ∈ droppedGroups settings before after ↔
      isDropped settings (echo? settings before after) group (linesThrough after group) = true :=
  List.mem_filter.trans (and_iff_right hgroup)

theorem linesThrough_singleton {line : List Char} (hline : after[i]? = some line) :
    linesThrough after [i] = [line] := by
  obtain ⟨hlt, rfl⟩ := List.getElem?_eq_some_iff.1 hline
  change (after.take (i + 1)).drop i = _
  rw [List.drop_take, Nat.add_sub_cancel_left, List.drop_eq_getElem_cons hlt, List.take_succ_cons,
    List.take_zero]

/-- A group with two members reaches over two lines. -/
theorem two_le_length_linesThrough {group : List Nat}
    (hgroup : group ∈ Text.commonLines (before.map Text.trim) (after.map Text.trim)) {a b : Nat}
    (ha : a ∈ group) (hb : b ∈ group) (hab : a < b) : 2 ≤ (linesThrough after group).length := by
  have hincreasing := Text.pairwise_of_mem_commonLines hgroup
  have hne : group ≠ [] := List.ne_nil_of_mem ha
  have hfirst := List.head?_eq_some_head hne
  have hlast := List.getLast?_eq_some_getLast hne
  have hbound := lt_length_of_mem_group hgroup (List.getLast_mem hne)
  have hle := (ends_of_mem hincreasing hfirst hlast ha).1
  have hle' := (ends_of_mem hincreasing hfirst hlast hb).2
  rw [linesThrough, hfirst, hlast, Option.getD_some, Option.getD_some, List.length_drop,
    List.length_take]
  omega

theorem length_linesThrough_le (after : List (List Char)) (group : List Nat) :
    (linesThrough after group).length ≤ after.length := by
  rw [linesThrough, List.length_drop, List.length_take]
  omega

theorem minBlockSize_le_of_isMonotonous {lines : List (List Char)}
    (h : isMonotonous settings lines = true) : settings.minBlockSize ≤ lines.length := by
  simp only [isMonotonous, Bool.and_eq_true, decide_eq_true_eq] at h
  exact h.1.1.1

/-- **A longer group** is no lone comment and no echo, so only its variety counts. -/
theorem isDropped_of_ne_singleton {group : List Nat} {echoed : Option Nat}
    (hgroup : group ∈ Text.commonLines (before.map Text.trim) (after.map Text.trim))
    (hi : i ∈ group) (hne : group ≠ [i]) :
    isDropped settings echoed group (linesThrough after group) =
      isMonotonous settings (linesThrough after group) := by
  obtain ⟨a, b, hab, -⟩ := Text.exists_neighbours hi hne
  have hlt := ((Text.neighbours_iff (Text.pairwise_of_mem_commonLines hgroup)).1 hab).2.1
  -- two members are two lines, so the group is neither a lone comment nor an echo
  have htwo : 2 ≤ (linesThrough after group).length :=
    two_le_length_linesThrough hgroup (hab.subset (by simp)) (hab.subset (by simp)) hlt
  have hlong : group.length ≠ 1 := by
    have hle : 2 ≤ group.length := hab.length_le
    omega
  have hcomment : isLoneComment (linesThrough after group) = false := by
    match linesThrough after group, htwo with
    | _ :: _ :: _, _ => rfl
  simp [isDropped, hcomment, hlong]

/-! ### Lines that the context lacks -/

/-- A line before the break that is the same, blanks at the ends apart. -/
def Repeats (before : List (List Char)) (line : List Char) : Prop :=
  ∃ other ∈ before, Text.trim other = Text.trim line

/-- Every member of a group is a repeat. -/
theorem repeats_of_mem_group {group : List Nat}
    (hgroup : group ∈ Text.commonLines (before.map Text.trim) (after.map Text.trim))
    (hi : i ∈ group) {line : List Char} (hline : after[i]? = some line) : Repeats before line := by
  obtain ⟨trimmed, hsource, htarget⟩ := Text.exists_line_of_mem_group hgroup hi
  obtain ⟨other, hother, rfl⟩ := List.mem_map.1 hsource
  rw [List.getElem?_map, hline] at htarget
  exact ⟨other, hother, (Option.some.inj htarget).symm⟩

/-- Two neighbours of a group repeat two lines that follow each other before the break. -/
theorem exists_repeated_of_neighbours {group : List Nat}
    (hgroup : group ∈ Text.commonLines (before.map Text.trim) (after.map Text.trim)) {a b : Nat}
    (hab : [a, b] <:+: group) :
    ∃ p, p + 1 < before.length ∧ (before[p]?).map Text.trim = (after[a]?).map Text.trim ∧
      (before[p + 1]?).map Text.trim = (after[b]?).map Text.trim := by
  obtain ⟨p, first, second, hp, hnext, ha, hb⟩ := Text.exists_lines_of_neighbours hgroup hab
  have hlt := (List.getElem?_eq_some_iff.1 hnext).1
  rw [List.length_map] at hlt
  simp only [List.getElem?_map] at hp hnext ha hb
  exact ⟨p, hlt, hp.trans ha.symm, hnext.trans hb.symm⟩

/-- **A line that the context lacks is left out exactly in a gap** of a dropped group. The gaps
stand between lines that repeat two lines which follow each other before the break. -/
theorem unrepeated_left_out_iff {context completion : String} (settings : RepeatSettings)
    {rest following : List Char}
    (h : Text.restOfLine? context.toList completion.toList = some (rest, following)) :
    let before := Text.segments (context.toList ++ rest)
    let after := Text.segments following
    removeRepeats context completion settings = String.ofList (rest ++
        ((after.zipIdx.filter fun (_, i) => i ∉ leftOut settings before after).map
          Prod.fst).flatten) ∧
      (∀ i line, after[i]? = some line → ¬ Repeats before line →
        (i ∈ leftOut settings before after ↔
          ∃ group ∈ droppedGroups settings before after, InGap group i)) ∧
      ∀ group ∈ droppedGroups settings before after, ∀ a b, [a, b] <:+: group →
        ∃ p, p + 1 < before.length ∧ (before[p]?).map Text.trim = (after[a]?).map Text.trim ∧
          (before[p + 1]?).map Text.trim = (after[b]?).map Text.trim := by
  intro before after
  refine ⟨?_, fun i line hline hlacks => ?_, fun group hgroup a b hab =>
    exists_repeated_of_neighbours (mem_commonLines_of_mem_droppedGroups hgroup) hab⟩
  · simp only [removeRepeats, h, ← keepOutside_droppedSpans, before, after]
  · rw [mem_leftOut_iff]
    -- a line that repeats nothing is in no group, so the gap is what is left
    refine exists_congr fun group => and_congr_right fun hgroup => or_iff_right fun hi => ?_
    exact hlacks (repeats_of_mem_group (mem_commonLines_of_mem_droppedGroups hgroup) hi hline)

/-- Five lines of a reply, of which four repeat the four lines before them and the third is new. -/
def sums : String × String :=
  ("sum += a\nsum += b\nsum += c\nsum += d\n",
    "sum += a\nsum += b\nsum += x\nsum += c\nsum += d")

/-- The new line stands in the gap of the group of the other four, which is a large block of little
variety. So nothing is left of the reply. -/
theorem unrepeated_left_out_iff_sums :
    Text.restOfLine? sums.1.toList sums.2.toList = some ([], sums.2.toList) ∧
      (Text.segments sums.2.toList)[2]? = some "\nsum += x".toList ∧
      ¬ Repeats (Text.segments sums.1.toList) "\nsum += x".toList ∧
      2 ∈ leftOut {} (Text.segments sums.1.toList) (Text.segments sums.2.toList) ∧
      removeRepeats sums.1 sums.2 {} = "" := by
  have hrest : Text.restOfLine? sums.1.toList sums.2.toList = some ([], sums.2.toList) := by
    decide +kernel
  have hline : (Text.segments sums.2.toList)[2]? = some "\nsum += x".toList := by
    decide +kernel
  have hlacks : ¬ Repeats (Text.segments sums.1.toList) "\nsum += x".toList := by
    unfold Repeats
    decide +kernel
  -- the new line is left out between the two halves of the group
  obtain ⟨-, hiff, -⟩ := unrepeated_left_out_iff {} hrest
  rw [List.append_nil] at hiff
  refine ⟨hrest, hline, hlacks, (hiff 2 _ hline hlacks).2 ⟨[0, 1, 3, 4], by decide +kernel,
    1, 3, ⟨[0], [4], rfl⟩, by decide, by decide⟩, by decide +kernel⟩

end CodeAssist.Cleanup
