import CodeAssist.Cleanup.Repeats
import CodeAssist.Proofs.Text.CommonLines
import CodeAssist.Proofs.Text.Points

/-!
# Removing repeats loses lines only

Repeated lines are removed group by group: what stands between two groups is kept, and a group is
kept or dropped as a whole. Each step reads the lines from the end of the group before it, so it
needs the groups in their order. They are: read one after the other, the groups of common lines are
increasing line numbers (`Text.flatten_commonLines_sublist`), because matches are found line by line
and grouping only cuts their list into pieces.

Main statements: `removeRepeatsChecked?_eq` — going through the groups, with ranges of lines and
slices of text that have no value out of bounds, always has the value of the plain definition; and
`removeRepeats_sublist` — what is left is the reply without some of its characters.
-/

namespace CodeAssist.Cleanup

/-! ### Groups in their order -/

/-- Groups of line numbers from `prev` on and below `n`, increasing through all of them. -/
structure InOrder (prev n : Nat) (groups : List (List Nat)) : Prop where
  nonempty : [] ∉ groups
  increasing : groups.flatten.Pairwise (· < ·)
  bounds : ∀ i ∈ groups.flatten, prev ≤ i ∧ i < n

/-- Common lines are in order, from the first line on. -/
theorem inOrder_commonLines (source target : List (List Char)) :
    InOrder 0 target.length (Text.commonLines source target) where
  nonempty := Text.nil_notMem_commonLines source target
  increasing := Text.pairwise_flatten_commonLines source target
  bounds i hi := by
    have hrange := (Text.flatten_commonLines_sublist source target).subset hi
    exact ⟨Nat.zero_le i, List.mem_range.1 hrange⟩

namespace InOrder

variable {prev n : Nat} {group : List Nat} {groups : List (List Nat)}

/-- The first group reaches from its first to its last line, and the others come behind it. -/
theorem exists_ends (h : InOrder prev n (group :: groups)) :
    ∃ first last, group.head? = some first ∧ group.getLast? = some last ∧
      prev ≤ first ∧ first ≤ last ∧ last < n ∧ InOrder (last + 1) n groups := by
  have hincreasing := h.increasing
  have hbounds := h.bounds
  rw [List.flatten_cons, List.pairwise_append] at hincreasing
  rw [List.flatten_cons] at hbounds
  obtain ⟨hgroup, hgroups, hbehind⟩ := hincreasing
  -- the rest of the groups lie behind any line of the first one
  have hlater : ∀ last ∈ group, InOrder (last + 1) n groups := fun last hlast => {
    nonempty := fun hnil => h.nonempty (List.mem_cons_of_mem _ hnil)
    increasing := hgroups
    bounds := fun i hi => ⟨hbehind last hlast i hi, (hbounds i (List.mem_append_right _ hi)).2⟩ }
  cases group with
  | nil => exact absurd List.mem_cons_self h.nonempty
  | cons first others =>
    have hlast := List.getLast_mem (List.cons_ne_nil first others)
    obtain ⟨hprev, -⟩ := hbounds first (List.mem_append_left _ List.mem_cons_self)
    obtain ⟨-, hn⟩ := hbounds _ (List.mem_append_left _ hlast)
    refine ⟨first, _, rfl, List.getLast?_eq_some_getLast _, hprev, ?_, hn, hlater _ hlast⟩
    -- the last line is the first one or comes behind it
    rcases List.mem_cons.1 hlast with heq | hothers
    · exact Nat.le_of_eq heq.symm
    · exact Nat.le_of_lt ((List.pairwise_cons.1 hgroup).1 _ hothers)

end InOrder

/-! ### Going through the groups -/

/-- The lines from `first` on and before `stop`. They have no value where the range is turned round
or out of bounds. -/
def rangeChecked? (first stop : Nat) (lines : List (List Char)) : Option (List (List Char)) :=
  if first ≤ stop ∧ stop ≤ lines.length then some ((lines.take stop).drop first) else none

/-- The lines from `prev` on, without the groups that are dropped. -/
def keepGroupsChecked? (dropped : List Nat → List (List Char) → Bool) (lines : List (List Char)) :
    (prev : Nat) → List (List Nat) → Option (List (List Char))
  | prev, [] => rangeChecked? prev lines.length lines
  | prev, group :: groups =>
    match group.head?, group.getLast? with
    | some first, some last => do
      let target ← rangeChecked? first (last + 1) lines
      let between ← rangeChecked? prev first lines
      let later ← keepGroupsChecked? dropped lines (last + 1) groups
      return between ++ (if dropped group target then [] else target) ++ later
    | _, _ => keepGroupsChecked? dropped lines prev groups

/-- A reply without the lines that repeat the context, by slices of the text and ranges of lines
that have no value out of bounds. -/
def removeRepeatsChecked? (context completion : String) (settings : RepeatSettings) :
    Option String :=
  let text := context.toList ++ completion.toList
  let start := Text.byteSize context.toList
  match Text.lineStartFrom? text start with
  | none => some completion
  | some lineBreak => do
    let before := Text.segments (← Text.slice? 0 lineBreak text)
    let after := Text.segments (← Text.slice? lineBreak (Text.byteSize text) text)
    let trimmedBefore := before.map Text.trim
    let trimmedAfter := after.map Text.trim
    let echoed := if settings.dropEchoedLine then
        echoedLine? trimmedBefore trimmedAfter settings.echoedLineMinChars
      else none
    let kept ← keepGroupsChecked? (isDropped settings echoed) after 0
      (Text.commonLines trimmedBefore trimmedAfter)
    let rest ← Text.slice? start lineBreak text
    return String.ofList (rest ++ kept.flatten)

/-- The first and the last line of each group that is dropped. -/
def spansOf (dropped : List Nat → List (List Char) → Bool) (lines : List (List Char))
    (groups : List (List Nat)) : List (Nat × Nat) :=
  groups.filterMap fun group => do
    let first ← group.head?
    let last ← group.getLast?
    if dropped group ((lines.take (last + 1)).drop first) then some (first, last) else none

/-- Whether a line is outside some spans. -/
def isOutside (spans : List (Nat × Nat)) (i : Nat) : Bool :=
  !spans.any fun (first, last) => first ≤ i && i ≤ last

/-- The numbered lines from `first` on and before `stop`. -/
def numbered (first stop : Nat) (lines : List (List Char)) : List (List Char × Nat) :=
  ((lines.take stop).drop first).zipIdx first

variable {dropped : List Nat → List (List Char) → Bool} {lines : List (List Char)}

/-- Numbered lines are split at any line between their ends. -/
theorem numbered_append {first mid stop : Nat} (h : first ≤ mid) (h' : mid ≤ stop)
    (hstop : stop ≤ lines.length) :
    numbered first stop lines = numbered first mid lines ++ numbered mid stop lines := by
  -- up to the middle, the lines before the end are the lines before the middle
  have hmid : (lines.take stop).take mid = lines.take mid := by
    rw [List.take_take, Nat.min_eq_left h']
  have hlength : (lines.take mid).length = mid := by
    rw [List.length_take]
    omega
  have hsplit : (lines.take stop).drop first =
      (lines.take mid).drop first ++ (lines.take stop).drop mid := by
    conv_lhs => rw [← List.take_append_drop mid (lines.take stop), hmid]
    exact List.drop_append_of_le_length (by omega)
  -- the second part is numbered from where the first one stopped
  have hnext : first + ((lines.take mid).drop first).length = mid := by
    rw [List.length_drop]
    omega
  rw [numbered, hsplit, List.zipIdx_append, hnext]
  rfl

/-- Numbered lines have the numbers of their range. -/
theorem bounds_of_mem_numbered {first stop : Nat} {entry : List Char × Nat}
    (h : entry ∈ numbered first stop lines) : first ≤ entry.2 ∧ entry.2 < stop := by
  have hle := List.le_snd_of_mem_zipIdx h
  have hlt := List.snd_lt_add_of_mem_zipIdx h
  rw [List.length_drop, List.length_take] at hlt
  omega

/-- Without their numbers the lines are the range. -/
theorem map_fst_numbered (first stop : Nat) :
    (numbered first stop lines).map Prod.fst = (lines.take stop).drop first :=
  List.zipIdx_map_fst _ _

/-- Spans are the ends of dropped groups. -/
theorem mem_spansOf_iff {groups : List (List Nat)} {first last : Nat} :
    (first, last) ∈ spansOf dropped lines groups ↔
      ∃ group ∈ groups, group.head? = some first ∧ group.getLast? = some last ∧
        dropped group ((lines.take (last + 1)).drop first) = true := by
  simp only [spansOf, List.mem_filterMap, Option.bind_eq_bind, Option.bind_eq_some_iff]
  constructor
  · rintro ⟨group, hgroup, first', hfirst, last', hlast, hkept⟩
    split at hkept
    · next hdropped =>
      cases hkept
      exact ⟨group, hgroup, hfirst, hlast, hdropped⟩
    · cases hkept
  · rintro ⟨group, hgroup, hfirst, hlast, hdropped⟩
    exact ⟨group, hgroup, first, hfirst, last, hlast, if_pos hdropped⟩

/-- The spans of groups in order start no earlier than the groups. -/
theorem InOrder.le_of_mem_spansOf {prev n : Nat} {groups : List (List Nat)}
    (h : InOrder prev n groups) {span : Nat × Nat} (hspan : span ∈ spansOf dropped lines groups) :
    prev ≤ span.1 := by
  obtain ⟨group, hgroup, hfirst, -, -⟩ := mem_spansOf_iff.1 hspan
  exact (h.bounds _ (List.mem_flatten.2 ⟨group, hgroup, List.mem_of_head? hfirst⟩)).1

/-- A line before all spans is outside. -/
theorem isOutside_of_lt {spans : List (Nat × Nat)} {i : Nat} (h : ∀ span ∈ spans, i < span.1) :
    isOutside spans i = true := by
  simp only [isOutside, Bool.not_eq_true', List.any_eq_false, Bool.and_eq_true, decide_eq_true_eq]
  intro span hspan hin
  have hlt := h span hspan
  omega

/-- A line is outside some spans where it is outside each of them. -/
theorem isOutside_cons (first last : Nat) (spans : List (Nat × Nat)) (i : Nat) :
    isOutside ((first, last) :: spans) i =
      (!(decide (first ≤ i) && decide (i ≤ last)) && isOutside spans i) := by
  simp [isOutside, Bool.not_or]

/-- Lines before all spans are kept. -/
theorem filter_isOutside_of_lt {spans : List (Nat × Nat)} {first stop : Nat}
    (h : ∀ span ∈ spans, stop ≤ span.1) :
    ((numbered first stop lines).filter fun (_, i) => isOutside spans i).map Prod.fst =
      (lines.take stop).drop first := by
  rw [List.filter_eq_self.2, map_fst_numbered]
  intro entry hentry
  obtain ⟨-, hlt⟩ := bounds_of_mem_numbered hentry
  exact isOutside_of_lt fun span hspan => Nat.lt_of_lt_of_le hlt (h span hspan)

/-- A dropped group takes away its own lines and none behind it. -/
theorem filter_isOutside_cons {spans : List (Nat × Nat)} {first last stop : Nat}
    (h : first ≤ last) (hlast : last + 1 ≤ stop) (hstop : stop ≤ lines.length) :
    ((numbered first stop lines).filter fun (_, i) => isOutside ((first, last) :: spans) i) =
      (numbered (last + 1) stop lines).filter fun (_, i) => isOutside spans i := by
  rw [numbered_append (by omega : first ≤ last + 1) hlast hstop, List.filter_append]
  -- the span's own lines are inside of it, and those behind it are only looked at by the others
  have hown : ((numbered first (last + 1) lines).filter fun (_, i) =>
      isOutside ((first, last) :: spans) i) = [] := by
    refine List.filter_eq_nil_iff.2 fun entry hentry => ?_
    obtain ⟨hle, hlt⟩ := bounds_of_mem_numbered hentry
    simp [isOutside_cons, hle, Nat.le_of_lt_succ hlt]
  have hbehind : ((numbered (last + 1) stop lines).filter fun (_, i) =>
      isOutside ((first, last) :: spans) i) =
      (numbered (last + 1) stop lines).filter fun (_, i) => isOutside spans i := by
    refine List.filter_congr fun entry hentry => ?_
    obtain ⟨hle, -⟩ := bounds_of_mem_numbered hentry
    have hnot : ¬ entry.2 ≤ last := by omega
    simp [isOutside_cons, hnot]
  rw [hown, hbehind, List.nil_append]

/-- **Going through the groups** keeps the lines outside the spans of the dropped ones. -/
theorem keepGroupsChecked?_eq {prev : Nat} {groups : List (List Nat)}
    (h : InOrder prev lines.length groups) (hprev : prev ≤ lines.length) :
    keepGroupsChecked? dropped lines prev groups =
      some (((numbered prev lines.length lines).filter fun (_, i) =>
        isOutside (spansOf dropped lines groups) i).map Prod.fst) := by
  -- the induction carries the line where the last group stopped
  induction groups generalizing prev with
  | nil =>
    rw [keepGroupsChecked?, rangeChecked?, if_pos ⟨hprev, Nat.le_refl _⟩,
      filter_isOutside_of_lt (by simp [spansOf])]
  | cons group groups ih =>
    obtain ⟨first, last, hfirst, hlast, hle, hle', hlt, hlater⟩ := h.exists_ends
    -- the later groups begin behind this one, so they leave out nothing up to its last line
    have hspans : ∀ span ∈ spansOf dropped lines groups, last + 1 ≤ span.1 :=
      fun span hspan => hlater.le_of_mem_spansOf hspan
    -- both ranges lie within the lines, so the checks pass
    have htarget : rangeChecked? first (last + 1) lines =
        some ((lines.take (last + 1)).drop first) := if_pos (by omega)
    have hbetween : rangeChecked? prev first lines = some ((lines.take first).drop prev) :=
      if_pos (by omega)
    simp only [keepGroupsChecked?, hfirst, hlast, htarget, hbetween, ih hlater (by omega),
      Option.bind_eq_bind, Option.bind_some, Option.pure_def, Option.some.injEq]
    rw [numbered_append hle (by omega : first ≤ lines.length) (Nat.le_refl _), List.filter_append,
      List.map_append, List.append_assoc]
    -- the group's lines are left out at one place, or kept behind the lines before them
    by_cases hdropped : dropped group ((lines.take (last + 1)).drop first)
    · have hcons : spansOf dropped lines (group :: groups) =
          (first, last) :: spansOf dropped lines groups := by
        simp [spansOf, hfirst, hlast, hdropped]
      have hbefore : ∀ span ∈ (first, last) :: spansOf dropped lines groups, first ≤ span.1 := by
        intro span hspan
        rcases List.mem_cons.1 hspan with rfl | hspan
        · exact Nat.le_refl _
        · exact Nat.le_trans (by omega) (hspans span hspan)
      rw [hcons, filter_isOutside_of_lt hbefore, if_pos hdropped, List.nil_append,
        filter_isOutside_cons hle' hlt (Nat.le_refl _)]
    · have hcons : spansOf dropped lines (group :: groups) = spansOf dropped lines groups := by
        simp [spansOf, hfirst, hlast, hdropped]
      have hbefore : ∀ span ∈ spansOf dropped lines groups, first ≤ span.1 :=
        fun span hspan => Nat.le_trans (by omega) (hspans span hspan)
      rw [hcons, filter_isOutside_of_lt hbefore, if_neg hdropped,
        numbered_append (by omega : first ≤ last + 1) hlt (Nat.le_refl _), List.filter_append,
        List.map_append, filter_isOutside_of_lt hspans]

/-! ### The reply -/

/-- Lines outside some spans are some of the lines. -/
theorem keepOutside_sublist (spans : List (Nat × Nat)) (lines : List (List Char)) :
    (keepOutside spans lines).Sublist lines := by
  have h := (List.filter_sublist (p := fun entry : List Char × Nat =>
    isOutside spans entry.2) (l := lines.zipIdx)).map Prod.fst
  rwa [List.zipIdx_map_fst] at h

/-- **Removing repeats only deletes.** -/
theorem removeRepeats_sublist (context completion : String) (settings : RepeatSettings) :
    (removeRepeats context completion settings).toList.Sublist completion.toList := by
  unfold removeRepeats
  split
  · exact List.Sublist.refl _
  · next rest following h =>
    rw [String.toList_ofList, ← Text.append_of_restOfLine? h]
    -- the part on the cursor's line stays, and of the lines behind it only whole ones go
    have hlines := (keepOutside_sublist (droppedSpans settings
      (Text.segments (context.toList ++ rest)) (Text.segments following))
      (Text.segments following)).flatten
    rw [Text.flatten_segments] at hlines
    exact (List.Sublist.refl rest).append hlines

/-- The position of the line break is the end of the current line. -/
theorem lineStartFrom?_append (before after : List Char) :
    Text.lineStartFrom? (before ++ after) (Text.byteSize before) =
      (Text.restOfLine? before after).map fun parts =>
        Text.byteSize before + Text.byteSize parts.1 := by
  simp only [Text.lineStartFrom?, Text.splitAt?_byteSize_append, Option.bind_eq_bind,
    Option.bind_some]
  cases Text.restOfLine? before after <;> rfl

/-- All numbered lines, of which those outside the spans are kept. -/
theorem keepOutside_eq (spans : List (Nat × Nat)) (lines : List (List Char)) :
    keepOutside spans lines =
      ((numbered 0 lines.length lines).filter fun (_, i) => isOutside spans i).map Prod.fst := by
  rw [numbered, List.take_length, List.drop_zero]
  rfl

/-- **Removing repeats never leaves its bounds.** -/
theorem removeRepeatsChecked?_eq (context completion : String) (settings : RepeatSettings) :
    removeRepeatsChecked? context completion settings =
      some (removeRepeats context completion settings) := by
  simp only [removeRepeatsChecked?, removeRepeats, lineStartFrom?_append]
  cases hrest : Text.restOfLine? context.toList completion.toList with
  | none => rfl
  | some parts =>
    obtain ⟨rest, following⟩ := parts
    rw [← Text.append_of_restOfLine? hrest]
    -- the three slices of the text
    have hbefore : Text.slice? 0 (Text.byteSize context.toList + Text.byteSize rest)
        (context.toList ++ (rest ++ following)) = some (context.toList ++ rest) := by
      simpa using Text.slice?_append [] (context.toList ++ rest) following
    have hafter : Text.slice? (Text.byteSize context.toList + Text.byteSize rest)
        (Text.byteSize (context.toList ++ (rest ++ following)))
        (context.toList ++ (rest ++ following)) = some following := by
      simpa [Nat.add_assoc] using Text.slice?_append (context.toList ++ rest) following []
    have hcurrent := Text.slice?_append context.toList rest following
    -- the lines between the groups
    have hgroups := inOrder_commonLines
      ((Text.segments (context.toList ++ rest)).map Text.trim)
      ((Text.segments following).map Text.trim)
    rw [List.length_map] at hgroups
    simp only [Option.map_some, hbefore, hafter, hcurrent, keepGroupsChecked?_eq hgroups
      (Nat.zero_le _), ← keepOutside_eq, Option.bind_eq_bind, Option.bind_some]
    rfl

end CodeAssist.Cleanup
