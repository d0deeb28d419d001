import CodeAssist.Proofs.Text.CommonLines

/-!
# Neighbours among the common lines

The groups cut the increasing list of the common lines into pieces, so all that a line has to do
with its group is said by its neighbours in that list: it stands alone in its group where no
neighbour is matched with the source line next to its own (`ne_singleton_iff`).

In an increasing list neighbours are known by what is *not* between them (`neighbours_iff`). So the
places of the lines in the list do not matter, and no line of one group stands between two
neighbours of another one.
-/

namespace CodeAssist.Text

/-! ### Neighbours in a list -/

section Increasing

variable {l : List Nat} {a b i : Nat}

/-- In an increasing list two elements are neighbours where no other element is between them. -/
theorem neighbours_iff (hl : l.Pairwise (· < ·)) :
    [a, b] <:+: l ↔ (a ∈ l ∧ b ∈ l) ∧ a < b ∧ ∀ k ∈ l, k ≤ a ∨ b ≤ k := by
  constructor
  · rintro ⟨before, behind, rfl⟩
    -- what stands before the two is less than the first, what stands behind is more than the second
    rw [List.append_assoc, List.pairwise_append] at hl
    obtain ⟨-, htail, hbefore⟩ := hl
    obtain ⟨hfirst, htail⟩ := List.pairwise_cons.1 htail
    have hbehind := (List.pairwise_cons.1 htail).1
    refine ⟨by simp, hfirst b List.mem_cons_self, fun k hk => ?_⟩
    rw [List.append_assoc, List.mem_append, List.mem_append] at hk
    rcases hk with hk | hk | hk
    · exact .inl (Nat.le_of_lt (hbefore k hk a List.mem_cons_self))
    · rcases List.mem_pair.1 hk with rfl | rfl
      · exact .inl (Nat.le_refl k)
      · exact .inr (Nat.le_refl k)
    · exact .inr (Nat.le_of_lt (hbehind k hk))
  · rintro ⟨⟨ha, hb⟩, hab, hbetween⟩
    obtain ⟨before, tail, rfl⟩ := List.append_of_mem ha
    obtain ⟨-, htail, hbefore⟩ := List.pairwise_append.1 hl
    obtain ⟨hfirst, htail⟩ := List.pairwise_cons.1 htail
    -- the greater element stands behind the other one
    have hbtail : b ∈ tail := by
      rcases List.mem_append.1 hb with hb | hb
      · exact absurd (hbefore b hb a List.mem_cons_self) (Nat.lt_asymm hab)
      · exact (List.mem_cons.1 hb).resolve_left (Nat.ne_of_gt hab)
    cases tail with
    | nil => cases hbtail
    | cons c tail =>
      -- and what comes next is not before it
      have hle : b ≤ c := by
        refine (hbetween c (by simp)).resolve_left (Nat.not_le.2 ?_)
        exact hfirst c List.mem_cons_self
      rcases List.mem_cons.1 hbtail with rfl | hlater
      · exact ⟨before, tail, by simp⟩
      · exact absurd ((List.pairwise_cons.1 htail).1 b hlater) (Nat.not_lt.2 hle)

/-- A member of a list that is not alone in it has a neighbour. -/
theorem exists_neighbours (hi : i ∈ l) (hne : l ≠ [i]) :
    ∃ a b, [a, b] <:+: l ∧ (a = i ∨ b = i) := by
  obtain ⟨before, behind, rfl⟩ := List.append_of_mem hi
  -- the neighbour behind it, or the one before it where it is the last
  cases behind with
  | cons b behind => exact ⟨i, b, ⟨before, behind, by simp⟩, .inl rfl⟩
  | nil =>
    -- nothing but the element itself would make the list a single one
    have hbefore : before ≠ [] := by
      rintro rfl
      exact hne rfl
    refine ⟨before.getLast hbefore, i, ⟨before.dropLast, [], ?_⟩, .inr rfl⟩
    conv_rhs => rw [← List.dropLast_append_getLast hbefore]
    simp

end Increasing

/-! ### Neighbours in a group -/

section Groups

variable {α : Type} [BEq α] {source target : List α} {group other : List Nat} {a b i p q : Nat}

theorem infix_flatten (hgroup : group ∈ commonLines source target) :
    group <:+: (commonLines source target).flatten :=
  List.infix_of_mem_flatten hgroup

theorem pairwise_of_mem_commonLines (hgroup : group ∈ commonLines source target) :
    group.Pairwise (· < ·) :=
  (pairwise_flatten_commonLines source target).sublist (infix_flatten hgroup).sublist

/-- A line is in one group only. -/
theorem group_unique (hgroup : group ∈ commonLines source target) (hi : i ∈ group)
    (hother : other ∈ commonLines source target) (hi' : i ∈ other) : group = other := by
  have hnodup : (commonLines source target).flatten.Nodup :=
    (pairwise_flatten_commonLines source target).imp Nat.ne_of_lt
  have hsymm : Std.Symm (@List.Disjoint Nat) := ⟨fun _ _ h _ hb ha => h ha hb⟩
  by_contra hne
  exact (List.nodup_flatten.1 hnodup).2.forall hgroup hother hne hi hi'

/-- No common line stands between two neighbours of a group. -/
theorem le_or_le_of_neighbours (hgroup : group ∈ commonLines source target)
    (hab : [a, b] <:+: group) (hi : i ∈ (commonLines source target).flatten) : i ≤ a ∨ b ≤ i :=
  ((neighbours_iff (pairwise_flatten_commonLines source target)).1
    (hab.trans (infix_flatten hgroup))).2.2 i hi

/-- Two lines that come one after the other are in one group where their source lines do. -/
theorem mem_group_of_neighbours (hab : [a, b] <:+: (commonLines source target).flatten)
    (ha : IsMatch source target a p) (hb : IsMatch source target b (p + 1)) :
    ∃ group ∈ commonLines source target, a ∈ group ∧ b ∈ group := by
  rw [flatten_commonLines] at hab
  obtain ⟨pairs, ⟨before, behind, hsplit⟩, hfst⟩ := List.infix_map_iff.1 hab
  match pairs, hfst with
  | [(_, p'), (_, q')], rfl =>
    have hmem : ∀ pair ∈ [(a, p'), (b, q')], pair ∈ matchedLines source target := by
      intro pair hpair
      rw [← hsplit]
      exact List.mem_append_left _ (List.mem_append_right _ hpair)
    -- an index matches one source line only
    obtain rfl := ha.unique (mem_matchedLines_iff.1 (hmem (a, p') List.mem_cons_self))
    obtain rfl := hb.unique (mem_matchedLines_iff.1
      (hmem (b, q') (List.mem_cons_of_mem _ List.mem_cons_self)))
    have hfirst : (matchedLines source target)[before.length]? = some (a, p) := by
      rw [← hsplit]
      simp
    have hsecond : (matchedLines source target)[before.length + 1]? = some (b, p + 1) := by
      rw [← hsplit]
      simp
    exact (exists_group_iff hfirst hsecond).2 rfl

/-- **A line shares its group** where a neighbour among the common lines is matched with the source
line next to its own, on the same side. -/
theorem ne_singleton_iff (hgroup : group ∈ commonLines source target) (hi : i ∈ group) :
    group ≠ [i] ↔ ∃ a b p, [a, b] <:+: (commonLines source target).flatten ∧ (a = i ∨ b = i) ∧
      IsMatch source target a p ∧ IsMatch source target b (p + 1) := by
  constructor
  · intro hne
    obtain ⟨a, b, hab, hside⟩ := exists_neighbours hi hne
    obtain ⟨p, ha, hb⟩ := exists_matches_of_neighbours hgroup hab
    exact ⟨a, b, p, hab.trans (infix_flatten hgroup), hside, ha, hb⟩
  · rintro ⟨a, b, p, hab, hside, ha, hb⟩ hsingle
    have hlt : a < b := ((neighbours_iff (pairwise_flatten_commonLines source target)).1 hab).2.1
    obtain ⟨other, hother, hmema, hmemb⟩ := mem_group_of_neighbours hab ha hb
    -- the group of the two is that of the line
    have hi' : i ∈ other := by
      rcases hside with rfl | rfl
      · exact hmema
      · exact hmemb
    rw [← group_unique hgroup hi hother hi', hsingle, List.mem_singleton] at hmema hmemb
    exact absurd (hmema.trans hmemb.symm) (Nat.ne_of_lt hlt)

end Groups

end CodeAssist.Text
