import CodeAssist.Proofs.Cleanup.KeptLines
import CodeAssist.Proofs.Text.Trimming

/-!
# Echoes of the line before the break

The line before the break and its echo behind the break are looked for through blank lines
(`IsEcho.echoedLine?_eq`), but the echo is dropped only where it is a group of its own. Blank lines
are common lines like any others, and a text that ends in a break has a blank last line. So where
one of the blank lines next to the echo is matched with the line next to its original, the echo
shares its group with that blank line (`JoinsBlank`) and is kept, unless the whole group is too
monotonous. Where one of the two sides has no blank line the echo is always dropped.

Main statement: `echo_left_out_iff`.
-/

namespace CodeAssist.Cleanup

open CodeAssist.Text (IsMatch commonLines)

/-- The first visible line behind the break repeats the last visible line before it, and this line
looks like code. No other visible line behind the break is a repeat. All lines are trimmed. -/
structure IsEcho (settings : RepeatSettings) (source target : List (List Char)) (i : Nat)
    (line : List Char) : Prop where
  last : ∃ above blanks, source = above ++ line :: blanks ∧ ∀ blank ∈ blanks, blank = []
  here : target[i]? = some line
  first : ∀ k < i, target[k]? = some []
  long : settings.echoedLineMinChars ≤ Text.visibleCount line
  code : line.any Text.isAlphanumeric = true
  only : ∀ k other, i < k → target[k]? = some other → other ≠ [] → other ∉ source

/-- The next blank line on one side of a line is matched with the source line next to that of the
line, on the same side. -/
def JoinsBlank (source target : List (List Char)) (i : Nat) : Prop :=
  ∃ a b p, (a = i ∧ target[b]? = some [] ∨ b = i ∧ target[a]? = some []) ∧ a < b ∧
    (∀ k, a < k → k < b → target[k]? ≠ some []) ∧
    IsMatch source target a p ∧ IsMatch source target b (p + 1)

variable {settings : RepeatSettings} {source target : List (List Char)} {i : Nat}
  {line : List Char}

/-! ### Common lines, by what they say -/

/-- A line is common where the source has it. -/
theorem mem_flatten_commonLines_iff_mem {k : Nat} {other : List Char}
    (hk : target[k]? = some other) :
    k ∈ (commonLines source target).flatten ↔ other ∈ source := by
  rw [Text.mem_flatten_commonLines_iff, List.mem_iff_getElem?]
  refine exists_congr fun q => ?_
  rw [Text.equalAt, hk]
  cases source[q]? with
  | none => simp
  | some s => simp

theorem mem_flatten_of_isMatch {k p : Nat} (h : IsMatch source target k p) :
    k ∈ (commonLines source target).flatten :=
  Text.mem_flatten_commonLines_iff.2 ⟨p, h.equalAt⟩

/-- A line that joins a blank one stands beside a blank line that is on both sides of the break. -/
theorem JoinsBlank.nil_mem (h : JoinsBlank source target i) : [] ∈ source ∧ [] ∈ target := by
  obtain ⟨a, b, p, hblank, -, -, ha, hb⟩ := h
  rcases hblank with ⟨-, hblank⟩ | ⟨-, hblank⟩
  · exact ⟨(mem_flatten_commonLines_iff_mem hblank).1 (mem_flatten_of_isMatch hb),
      List.mem_of_getElem? hblank⟩
  · exact ⟨(mem_flatten_commonLines_iff_mem hblank).1 (mem_flatten_of_isMatch ha),
      List.mem_of_getElem? hblank⟩

/-! ### The group of an echo -/

namespace IsEcho

theorem ne_nil (h : IsEcho settings source target i line) : line ≠ [] := by
  rintro rfl
  exact Bool.noConfusion h.code

/-- **The search finds the echo.** -/
theorem echoedLine?_eq (h : IsEcho settings source target i line) :
    echoedLine? source target settings.echoedLineMinChars = some i := by
  have hvisible : (!line.isEmpty) = true := by simp [h.ne_nil]
  have hlast : (source.reverse.find? fun line => !line.isEmpty) = some line := by
    -- read from the end, blank lines come before the visible one
    obtain ⟨above, blanks, rfl, hblanks⟩ := h.last
    have hnone : (blanks.reverse.find? fun line => !line.isEmpty) = none := by
      rw [List.find?_eq_none]
      intro blank hblank
      simp [hblanks blank (List.mem_reverse.1 hblank)]
    rw [List.reverse_append, List.reverse_cons, List.append_assoc, List.find?_append, hnone]
    simp [hvisible]
  obtain ⟨hlt, hget⟩ := List.getElem?_eq_some_iff.1 h.here
  have hfirst : (target.findIdx? fun line => !line.isEmpty) = some i := by
    -- the lines before it are blank
    rw [List.findIdx?_eq_some_iff_getElem]
    refine ⟨hlt, by rwa [hget], fun k hk => ?_⟩
    have hblank := (List.getElem?_eq_some_iff.1 (h.first k hk)).2
    simp [hblank]
  have hlong : settings.echoedLineMinChars ≤ line.countP fun c => !Text.isBlank c := h.long
  have hthere : target.getD i [] = line := by rw [List.getD_eq_getElem?_getD, h.here]; rfl
  simp only [echoedLine?, hlast, hfirst, Option.bind_eq_bind, Option.bind_some, hthere]
  simp [hlong, h.code]

theorem mem_flatten (h : IsEcho settings source target i line) :
    i ∈ (commonLines source target).flatten := by
  obtain ⟨above, blanks, rfl, -⟩ := h.last
  exact (mem_flatten_commonLines_iff_mem h.here).2
    (List.mem_append_right _ List.mem_cons_self)

/-- The other common lines are blank. -/
theorem eq_nil_of_mem_flatten (h : IsEcho settings source target i line) {k : Nat}
    (hk : k ∈ (commonLines source target).flatten) (hne : k ≠ i) : target[k]? = some [] := by
  rcases Nat.lt_or_gt_of_ne hne with hlt | hgt
  · exact h.first k hlt
  · -- behind the echo only blank lines are repeats
    have hbound := List.mem_range.1 ((Text.flatten_commonLines_sublist source target).subset hk)
    have hother := List.getElem?_eq_getElem hbound
    by_contra hblank
    refine h.only k _ hgt hother ?_ ((mem_flatten_commonLines_iff_mem hother).1 hk)
    exact fun hnil => hblank (hother.trans (congrArg some hnil))

/-- **An echo shares its group** only with blank lines, and only where it joins one. -/
theorem ne_singleton_iff (h : IsEcho settings source target i line) {group : List Nat}
    (hgroup : group ∈ commonLines source target) (hi : i ∈ group) :
    group ≠ [i] ↔ JoinsBlank source target i := by
  rw [Text.ne_singleton_iff hgroup hi, JoinsBlank]
  refine exists_congr fun a => exists_congr fun b => exists_congr fun p => ?_
  rw [Text.neighbours_iff (Text.pairwise_flatten_commonLines source target)]
  constructor
  -- the neighbour is the echo's own line on one side, so the other one is another common line
  · rintro ⟨⟨⟨ha, hb⟩, hlt, hbetween⟩, hside, hmatcha, hmatchb⟩
    have hblank : a = i ∧ target[b]? = some [] ∨ b = i ∧ target[a]? = some [] := by
      rcases hside with rfl | rfl
      · exact .inl ⟨rfl, h.eq_nil_of_mem_flatten hb (Nat.ne_of_gt hlt)⟩
      · exact .inr ⟨rfl, h.eq_nil_of_mem_flatten ha (Nat.ne_of_lt hlt)⟩
    have hjoins : [] ∈ source := by
      rcases hblank with ⟨-, hblank⟩ | ⟨-, hblank⟩
      · exact (mem_flatten_commonLines_iff_mem hblank).1 hb
      · exact (mem_flatten_commonLines_iff_mem hblank).1 ha
    refine ⟨hblank, hlt, fun k hak hkb hk => ?_, hmatcha, hmatchb⟩
    -- a blank line between the two would be common
    have hle := hbetween k ((mem_flatten_commonLines_iff_mem hk).2 hjoins)
    omega
  · rintro ⟨hblank, hlt, hbetween, hmatcha, hmatchb⟩
    have hside : a = i ∨ b = i := hblank.imp And.left And.left
    refine ⟨⟨⟨mem_flatten_of_isMatch hmatcha, mem_flatten_of_isMatch hmatchb⟩, hlt,
      fun k hk => ?_⟩, hside, hmatcha, hmatchb⟩
    -- a common line between the two would be blank
    by_contra hinside
    have hne : k ≠ i := by omega
    exact hbetween k (by omega) (by omega) (h.eq_nil_of_mem_flatten hk hne)

end IsEcho

/-! ### Dropped echoes -/

/-- Alone in its group an echo is dropped, and in a longer group only the group's variety counts. -/
theorem IsEcho.mem_leftOut_iff {before after : List (List Char)}
    (h : IsEcho settings (before.map Text.trim) (after.map Text.trim) i line)
    (hdrops : settings.dropEchoedLine = true) :
    i ∈ leftOut settings before after ↔
      ¬ JoinsBlank (before.map Text.trim) (after.map Text.trim) i ∨
        ∃ group ∈ commonLines (before.map Text.trim) (after.map Text.trim), i ∈ group ∧
          isMonotonous settings (linesThrough after group) = true := by
  obtain ⟨group, hgroup, hi⟩ := List.mem_flatten.1 h.mem_flatten
  have hfound : echo? settings before after = some i := by
    rw [echo?, if_pos hdrops]
    exact h.echoedLine?_eq
  rw [mem_leftOut_iff_of_mem_group hgroup hi, mem_droppedGroups_iff hgroup, hfound]
  by_cases hsingle : group = [i]
  · have halone : ¬ JoinsBlank (before.map Text.trim) (after.map Text.trim) i :=
      fun hjoins => (h.ne_singleton_iff hgroup hi).2 hjoins hsingle
    refine iff_of_true ?_ (.inl halone)
    simp [hsingle, isDropped]
  · -- with a blank line in its group it is no longer looked at as an echo
    have hjoins := (h.ne_singleton_iff hgroup hi).1 hsingle
    rw [isDropped_of_ne_singleton hgroup hi hsingle, or_iff_right (not_not_intro hjoins)]
    -- only the groups count now, and the line is in no second one
    constructor
    · intro hmonotonous
      exact ⟨group, hgroup, hi, hmonotonous⟩
    · rintro ⟨other, hother, hi', hmonotonous⟩
      rwa [Text.group_unique hgroup hi hother hi']

/-- **An echo is dropped**, however many blank lines stand around it, unless it joins a blank line
that both sides of the break have. Then it is dropped only together with a monotonous group. -/
theorem echo_left_out_iff {context completion : String} {rest following : List Char}
    (h : Text.restOfLine? context.toList completion.toList = some (rest, following))
    (hdrops : settings.dropEchoedLine = true)
    (hecho : IsEcho settings ((Text.segments (context.toList ++ rest)).map Text.trim)
      ((Text.segments following).map Text.trim) i line) :
    let before := Text.segments (context.toList ++ rest)
    let after := Text.segments following
    let source := before.map Text.trim
    let target := after.map Text.trim
    (removeRepeats context completion settings).toList =
        rest ++ (keptLines settings before after).flatten ∧
      (i ∈ leftOut settings before after ↔ ¬ JoinsBlank source target i ∨
        ∃ group ∈ commonLines source target, i ∈ group ∧
          isMonotonous settings (linesThrough after group) = true) ∧
      ([] ∉ source ∨ [] ∉ target → i ∈ leftOut settings before after) := by
  intro before after source target
  have hleft := hecho.mem_leftOut_iff hdrops
  refine ⟨removeRepeats_of_nextLine (Text.restOfLine?_eq_some_iff.1 h), hleft, fun hnone => ?_⟩
  -- where blank lines are common, both texts have one
  refine hleft.2 (.inl fun hjoins => ?_)
  obtain ⟨hsource, htarget⟩ := hjoins.nil_mem
  rcases hnone with hnone | hnone
  · exact hnone hsource
  · exact hnone htarget

/-- An echo in front of a new line is dropped. With a break at the end of the reply it is kept,
because the blank last lines of both texts are matched and join its group. -/
theorem echo_left_out_iff_closingBreak :
    (IsEcho {} [['x'], ['y'], []] [['y'], ['z']] 0 ['y'] ∧
        0 ∈ leftOut {} (Text.segments "x\ny\n".toList) (Text.segments "y\nz".toList) ∧
        removeRepeats "x\ny\n" "y\nz" {} = "\nz") ∧
      IsEcho {} [['x'], ['y'], []] [['y'], ['z'], []] 0 ['y'] ∧
        JoinsBlank [['x'], ['y'], []] [['y'], ['z'], []] 0 ∧
        0 ∉ leftOut {} (Text.segments "x\ny\n".toList) (Text.segments "y\nz\n".toList) ∧
        removeRepeats "x\ny\n" "y\nz\n" {} = "y\nz\n" := by
  have hlast : ∃ above blanks, [['x'], ['y'], []] = above ++ ['y'] :: blanks ∧
      ∀ blank ∈ blanks, blank = ([] : List Char) := ⟨[['x']], [[]], rfl, by simp⟩
  have hopen : IsEcho {} [['x'], ['y'], []] [['y'], ['z']] 0 ['y'] := by
    -- the other common line of the two texts is the blank one
    refine ⟨hlast, rfl, by simp, by decide, by decide +kernel, fun k other hk hother _ => ?_⟩
    match k, hother with
    | 1, rfl => decide
  have hclosed : IsEcho {} [['x'], ['y'], []] [['y'], ['z'], []] 0 ['y'] := by
    refine ⟨hlast, rfl, by simp, by decide, by decide +kernel, fun k other hk hother hne => ?_⟩
    match k, hother with
    | 1, rfl => decide
    | 2, rfl => exact absurd rfl hne
  have hjoins : JoinsBlank [['x'], ['y'], []] [['y'], ['z'], []] 0 := by
    refine ⟨0, 2, 1, .inl ⟨rfl, rfl⟩, by decide, fun k hk hk' => ?_,
      Text.mem_matchedLines_iff.1 (by decide), Text.mem_matchedLines_iff.1 (by decide)⟩
    obtain rfl : k = 1 := by omega
    simp
  have hrest : Text.restOfLine? "x\ny\n".toList "y\nz".toList = some ([], "y\nz".toList) := by
    decide +kernel
  have hrest' : Text.restOfLine? "x\ny\n".toList "y\nz\n".toList =
      some ([], "y\nz\n".toList) := by
    decide +kernel
  obtain ⟨-, -, hdropped⟩ := echo_left_out_iff hrest rfl hopen
  obtain ⟨-, hiff, -⟩ := echo_left_out_iff hrest' rfl hclosed
  refine ⟨⟨hopen, hdropped (.inr (by decide +kernel)), by decide +kernel⟩, hclosed, hjoins, ?_,
    by decide +kernel⟩
  intro hleft
  rcases hiff.1 hleft with halone | ⟨group, -, -, hmonotonous⟩
  -- the blank line makes it no lone echo, and the group is too small to be a block
  · exact halone hjoins
  · -- three lines are no large block
    have hfive := minBlockSize_le_of_isMonotonous hmonotonous
    exact absurd (le_trans hfive (length_linesThrough_le _ group)) (by decide +kernel)

end CodeAssist.Cleanup
