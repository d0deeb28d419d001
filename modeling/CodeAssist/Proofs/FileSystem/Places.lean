import CodeAssist.Dictionary
import CodeAssist.FileSystem
import Mathlib.Tactic.Common

/-!
# Where paths lead

Setting or clearing a place changes what stands there and nothing else (`lookup_set_of_ne`,
`lookup_remove_of_ne`). Where a path leads depends on the directories, the symbolic links and what
may be entered, and on nothing else. So a path that leads somewhere still leads there when
directories are made where nothing stood (`Extends.walk_eq`), and all paths lead where they led
when files change (`SameWays.walk_eq`).

A path that is not followed at its last step and ends at what is no link leads to the same place when
it is followed (`walk_true_of_false`).
-/

namespace CodeAssist.FileSystem

variable {fs fs' fs'' : FileSystem} {location other : Location} {entry : FileEntry}

/-! ### Entries -/

theorem isDirectory_iff : fs.isDirectory location = true ↔ fs.lookup location = some .directory :=
  decide_eq_true_iff

theorem isDirectory_eq_false_iff :
    fs.isDirectory location = false ↔ fs.lookup location ≠ some .directory :=
  decide_eq_false_iff_not

theorem isDirectory_of_none (h : fs.lookup location = none) : fs.isDirectory location = false :=
  isDirectory_eq_false_iff.2 (by simp [h])

theorem isDirectory_of_node {id : Nat} (h : fs.lookup location = some (.node id)) :
    fs.isDirectory location = false :=
  isDirectory_eq_false_iff.2 (by simp [h])

theorem lookup_set (fs : FileSystem) (h : location.names ≠ []) (entry : FileEntry) :
    (fs.set location entry).lookup location = some entry := by
  simp [lookup, set, h]

theorem lookup_filter_of_ne (entries : List (Location × FileEntry)) (h : other ≠ location) :
    (entries.filter fun candidate => candidate.1 ≠ location).lookup other =
      entries.lookup other :=
  lookup_filter_of_pos (p := fun place => place ≠ location) (decide_eq_true h) entries

theorem lookup_set_of_ne (fs : FileSystem) (entry : FileEntry) (h : other ≠ location) :
    (fs.set location entry).lookup other = fs.lookup other := by
  have hother : (other == location) = false := by simp [h]
  simp only [lookup, set, List.lookup_cons, hother, lookup_filter_of_ne _ h]

theorem lookup_remove_of_ne (fs : FileSystem) (h : other ≠ location) :
    (fs.remove location).lookup other = fs.lookup other := by
  simp only [lookup, remove, lookup_filter_of_ne _ h]

theorem lookup_remove (fs : FileSystem) (h : location.names ≠ []) :
    (fs.remove location).lookup location = none := by
  have hnone : (fs.entries.filter fun candidate => candidate.1 ≠ location).lookup location =
      none := by
    rw [List.lookup_eq_none_iff]
    intro candidate hcandidate
    have hne : candidate.1 ≠ location := by simpa using (List.mem_filter.1 hcandidate).2
    simpa using hne.symm
  simp only [lookup, if_neg h, remove, hnone]

/-- A place where no directory stands is no directory that is always there. -/
theorem names_ne_nil (h : fs.isDirectory location = false) : location.names ≠ [] := by
  intro hnames
  rw [isDirectory_eq_false_iff, lookup, if_pos hnames] at h
  exact h rfl

/-! ### Nodes -/

theorem linkAt?_of_node {id : Nat} (h : fs.lookup location = some (.node id)) :
    fs.linkAt? location = (fs.nodes id).target? := by
  rw [linkAt?, h]

theorem linkAt?_of_none (h : fs.lookup location = none) : fs.linkAt? location = none := by
  rw [linkAt?, h]

theorem linkAt?_of_directory (h : fs.lookup location = some .directory) :
    fs.linkAt? location = none := by
  rw [linkAt?, h]

/-- Writing to a node leaves a link a link. -/
@[simp] theorem target?_holding (node : FileNode) (content : Content) :
    (node.holding content).target? = node.target? := by
  cases node <;> rfl

/-- Of two contents that are written to a node the later one counts. -/
@[simp] theorem holding_holding (node : FileNode) (old content : Content) :
    (node.holding old).holding content = node.holding content := by
  cases node <;> rfl

theorem lt_of_mem_entries {entries : List (Location × FileEntry)} {id : Nat}
    (h : (location, .node id) ∈ entries) :
    id < entries.foldr (fun other bound =>
      match other.2 with
      | .directory => bound
      | .node id => max (id + 1) bound) 0 := by
  induction entries with
  | nil => cases h
  | cons first rest ih =>
    rw [List.foldr_cons]
    rcases List.mem_cons.1 h with rfl | hrest
    · exact Nat.lt_of_lt_of_le (Nat.lt_succ_self id) (Nat.le_max_left _ _)
    · -- Each entry can only raise the bound.
      split
      · exact ih hrest
      · exact Nat.lt_of_lt_of_le (ih hrest) (Nat.le_max_right _ _)

/-- **A fresh number** is that of no node with a name. -/
theorem lookup_ne_freshId (fs : FileSystem) (location : Location) :
    fs.lookup location ≠ some (.node fs.freshId) := by
  intro h
  rw [lookup] at h
  split at h
  · cases h
  · obtain ⟨before, after, hentries, -⟩ := List.lookup_eq_some_iff.1 h
    have hmem : (location, .node fs.freshId) ∈ fs.entries := by
      rw [hentries]
      simp
    exact Nat.lt_irrefl _ (lt_of_mem_entries hmem)

/-! ### Where a walk arrives -/

/-- A walk that arrives gets somewhere before it follows a link. -/
theorem advance_ne_nowhere {follow : Bool} {links : Nat} {start place : Location}
    {steps : List String} (h : fs.walk follow links start steps = some place) :
    fs.advance follow start steps ≠ .nowhere := by
  intro hnowhere
  cases links <;> simp [walk, hnowhere] at h

/-- A walk that meets no link arrives where its steps lead. -/
theorem eq_of_advance_eq_place {follow : Bool} {links : Nat} {start place other : Location}
    {steps : List String} (h : fs.walk follow links start steps = some place)
    (hother : fs.advance follow start steps = .place other) : other = place := by
  cases links <;> simpa [walk, hother] using h

/-! ### File systems with more directories -/

/-- A file system with all the directories of another one, and with the same links. -/
structure Extends (fs fs' : FileSystem) : Prop where
  isDirectory : ∀ place, fs.isDirectory place = true → fs'.isDirectory place = true
  links : ∀ place, fs'.linkAt? place = fs.linkAt? place
  obstacles : fs'.obstacles = fs.obstacles

namespace Extends

variable (h : Extends fs fs')
include h

/-- A directory that may be entered still may be. -/
theorem not_closed {place : Location}
    (hopen : ¬(!fs.isDirectory place || fs.obstacles.refuses (.enter place)) = true) :
    ¬(!fs'.isDirectory place || fs'.obstacles.refuses (.enter place)) = true := by
  simp only [Bool.or_eq_true, Bool.not_eq_true', not_or, Bool.not_eq_false] at hopen
  simp [h.isDirectory place hopen.1, h.obstacles, hopen.2]

/-- Steps that lead somewhere lead there with more directories. -/
theorem advance_eq {follow : Bool} {start : Location} {steps : List String}
    (hreach : fs.advance follow start steps ≠ .nowhere) :
    fs'.advance follow start steps = fs.advance follow start steps := by
  -- Every step is taken as before, since what it looks at is open, free or a link in both.
  fun_induction advance fs follow start steps with
  | case1 => rfl
  | case2 => exact absurd rfl hreach
  | case3 start steps hopen ih => rw [advance, if_neg (h.not_closed hopen), if_pos rfl, ih hreach]
  | case4 start steps hopen hstay ih =>
    rw [advance, if_neg (h.not_closed hopen), if_neg hstay, if_pos rfl, ih hreach]
  | case5 => exact absurd rfl hreach
  | case6 start step steps hopen hstay hback hname hnone ih =>
    rw [advance, if_neg (h.not_closed hopen), if_neg hstay, if_neg hback, if_neg hname, h.links,
      hnone]
    exact ih hreach
  | case7 start step steps hopen hstay hback hname target hsome hlast =>
    rw [advance, if_neg (h.not_closed hopen), if_neg hstay, if_neg hback, if_neg hname, h.links,
      hsome]
    exact if_pos hlast
  | case8 start step steps hopen hstay hback hname target hsome hlast =>
    rw [advance, if_neg (h.not_closed hopen), if_neg hstay, if_neg hback, if_neg hname, h.links,
      hsome]
    exact if_neg hlast

/-- **A path that leads somewhere** leads there with more directories. -/
theorem walk_eq {follow : Bool} {links : Nat} {start place : Location} {steps : List String}
    (hwalk : fs.walk follow links start steps = some place) :
    fs'.walk follow links start steps = some place := by
  -- The walk goes on behind each link with one fewer to follow.
  induction links generalizing start steps with
  | zero => rwa [walk, h.advance_eq (advance_ne_nowhere hwalk), ← walk]
  | succ links ih =>
    have hreach := advance_ne_nowhere hwalk
    rw [walk] at hwalk ⊢
    rw [h.advance_eq hreach]
    split
    · next hplace => rwa [hplace] at hwalk
    · next directory target rest hlink =>
      rw [hlink] at hwalk
      exact ih hwalk
    · next hnowhere => exact absurd hnowhere hreach

end Extends

/-! ### File systems with the same ways -/

/-- Two file systems with the same directories and the same links. -/
structure SameWays (fs fs' : FileSystem) : Prop where
  isDirectory : ∀ place, fs'.isDirectory place = fs.isDirectory place
  links : ∀ place, fs'.linkAt? place = fs.linkAt? place
  obstacles : fs'.obstacles = fs.obstacles

namespace SameWays

theorem toExtends (h : SameWays fs fs') : Extends fs fs' where
  isDirectory place hplace := (h.isDirectory place).trans hplace
  links := h.links
  obstacles := h.obstacles

theorem symm (h : SameWays fs fs') : SameWays fs' fs where
  isDirectory place := (h.isDirectory place).symm
  links place := (h.links place).symm
  obstacles := h.obstacles.symm

theorem trans (h : SameWays fs fs') (h' : SameWays fs' fs'') : SameWays fs fs'' where
  isDirectory place := (h'.isDirectory place).trans (h.isDirectory place)
  links place := (h'.links place).trans (h.links place)
  obstacles := h'.obstacles.trans h.obstacles

/-- **All paths lead where they led.** -/
theorem walk_eq (h : SameWays fs fs') (follow : Bool) (links : Nat) (start : Location)
    (steps : List String) :
    fs'.walk follow links start steps = fs.walk follow links start steps :=
  Option.ext fun _ => ⟨h.symm.toExtends.walk_eq, h.toExtends.walk_eq⟩

theorem locate_eq (h : SameWays fs fs') (follow : Bool) (path : String) :
    fs'.locate follow path = fs.locate follow path := by
  rw [locate, locate, h.walk_eq]

end SameWays

/-! ### Following the last step -/

/-- Steps that do not end at a link lead to the same place when they are followed to the end. -/
theorem advance_true_eq {start : Location} {steps : List String}
    (h : ∀ place, fs.advance false start steps = .place place → fs.linkAt? place = none) :
    fs.advance true start steps = fs.advance false start steps := by
  fun_induction advance fs false start steps with
  | case1 => rfl
  | case2 start step steps hclosed => rw [advance, if_pos hclosed]
  | case3 start steps hopen ih => rw [advance, if_neg hopen, if_pos rfl, ih h]
  | case4 start steps hopen hstay ih => rw [advance, if_neg hopen, if_neg hstay, if_pos rfl, ih h]
  | case5 start step steps hopen hstay hback hname =>
    rw [advance, if_neg hopen, if_neg hstay, if_neg hback, if_pos hname]
  | case6 start step steps hopen hstay hback hname hnone ih =>
    rw [advance, if_neg hopen, if_neg hstay, if_neg hback, if_neg hname]
    simp only [hnone]
    exact ih h
  | case7 start step steps hopen hstay hback hname target hsome hlast =>
    -- The steps would end at a link.
    cases hsome.symm.trans (h _ rfl)
  | case8 start step steps hopen hstay hback hname target hsome hlast =>
    -- The link stands before the last place, where it is followed in any case.
    rw [advance, if_neg hopen, if_neg hstay, if_neg hback, if_neg hname]
    simp_all

/-- **A path that ends at what is no link** leads there when it is followed to the end. -/
theorem walk_true_of_false {links : Nat} {start place : Location} {steps : List String}
    (h : fs.walk false links start steps = some place) (hlink : fs.linkAt? place = none) :
    fs.walk true links start steps = some place := by
  -- The links on the way are followed by both, so the induction is on how many are left.
  induction links generalizing start steps with
  | zero =>
    have hadvance := advance_true_eq fun other hother => eq_of_advance_eq_place h hother ▸ hlink
    rwa [walk, hadvance, ← walk]
  | succ links ih =>
    have hadvance := advance_true_eq fun other hother => eq_of_advance_eq_place h hother ▸ hlink
    rw [walk] at h ⊢
    rw [hadvance]
    split
    · next hplace => rwa [hplace] at h
    · next hnext =>
      rw [hnext] at h
      exact ih h
    · next hnowhere => rwa [hnowhere] at h

theorem locate_true_of_false {path : String} {place : Location}
    (h : fs.locate false path = some place) (hlink : fs.linkAt? place = none) :
    fs.locate true path = some place := by
  rw [locate] at h ⊢
  split at h
  · next hpath => rw [if_pos hpath, walk_true_of_false h hlink]
  · cases h

end CodeAssist.FileSystem
