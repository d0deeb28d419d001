import CodeAssist.Proofs.FileSystem.Places

/-!
# What operations change

Each operation has one relation that says all it can do. Making directories makes them at free places
to which the path leads, and does nothing else, also where it fails on the way (`Grown`,
`grown_createDirectories`). Writing changes one node, which is new or was there, and lets at most one
free place stand for it; what the node holds is the content or, where the writing failed, a first
part of it (`Filled`, `write_cases`). Moving changes two places and no node (`Moved`,
`exists_of_rename?`).

Writing leaves all paths where they lead (`Filled.sameWays`). Moving does so where neither of the two
places is a symbolic link (`Moved.sameWays`): a link that is moved, or that another file takes the
place of, may be on the way of any path.
-/

namespace CodeAssist.FileSystem

variable {fs fs' fs'' : FileSystem}

/-! ### Directories -/

/-- All that differs are new directories, at free places of some kind. -/
structure Grown (way : Location → Prop) (fs fs' : FileSystem) : Prop where
  lookup : ∀ place, fs'.lookup place = fs.lookup place ∨
    way place ∧ fs.lookup place = none ∧ fs'.lookup place = some .directory
  nodes : fs'.nodes = fs.nodes
  obstacles : fs'.obstacles = fs.obstacles

/-- The places to which the first steps of a path lead, or all of them. -/
def OnWay (fs : FileSystem) (start : Location) (steps : List String) (place : Location) : Prop :=
  ∃ front, front <+: steps ∧ fs.walk true maxLinks start front = some place

namespace Grown

variable {way : Location → Prop}

theorem refl (way : Location → Prop) (fs : FileSystem) : Grown way fs fs where
  lookup _ := .inl rfl
  nodes := rfl
  obstacles := rfl

theorem trans (h : Grown way fs fs') (h' : Grown way fs' fs'') : Grown way fs fs'' where
  lookup place := by
    rcases h'.lookup place with hsame | ⟨hway, hnone, hmade⟩
    · rw [hsame]
      exact h.lookup place
    · -- What is free later was free before, as nothing is taken away.
      rcases h.lookup place with hsame | ⟨-, -, hdirectory⟩
      · exact .inr ⟨hway, hsame ▸ hnone, hmade⟩
      · rw [hnone] at hdirectory
        cases hdirectory
  nodes := h'.nodes.trans h.nodes
  obstacles := h'.obstacles.trans h.obstacles

/-- Nothing is a link that was none, as what is new are directories. -/
theorem toExtends (h : Grown way fs fs') : Extends fs fs' where
  isDirectory place hplace := by
    rcases h.lookup place with hsame | ⟨-, -, hmade⟩
    · rwa [isDirectory, hsame, ← isDirectory]
    · exact isDirectory_iff.2 hmade
  links place := by
    rcases h.lookup place with hsame | ⟨-, hnone, hmade⟩
    · rw [linkAt?, linkAt?, hsame, h.nodes]
    · rw [linkAt?_of_directory hmade, linkAt?_of_none hnone]
  obstacles := h.obstacles

end Grown

/-- Making a directory makes it at a free place to which the steps lead then, unless it is there. -/
theorem grown_ensureDirectory? {start : Location} {steps : List String}
    (h : fs.ensureDirectory? start steps = some fs') :
    Grown (fun place => fs'.walk true maxLinks start steps = some place) fs fs' := by
  rw [ensureDirectory?] at h
  split at h
  · cases h
    exact .refl _ fs
  obtain ⟨place, hplace, h⟩ := Option.bind_eq_some_iff.1 h
  split at h
  · next hfree =>
    cases h
    simp only [Bool.and_eq_true, decide_eq_true_eq] at hfree
    have hnames : place.names ≠ [] := names_ne_nil (isDirectory_of_none hfree.1)
    -- The steps lead there already before the directory is made.
    have hwalk : fs.walk true maxLinks start steps = some place :=
      walk_true_of_false hplace (linkAt?_of_none hfree.1)
    have hgrown (way : Location → Prop) (hway : way place) :
        Grown way fs (fs.set place .directory) := {
      lookup := fun other => by
        by_cases hother : other = place
        · subst hother
          exact .inr ⟨hway, hfree.1, fs.lookup_set hnames .directory⟩
        · exact .inl (fs.lookup_set_of_ne .directory hother)
      nodes := rfl
      obstacles := rfl }
    exact hgrown _ ((hgrown (fun _ => True) trivial).toExtends.walk_eq hwalk)
  · cases h

/-- Making directories along some steps makes them at free places to which the steps lead. -/
theorem grown_createAlong (fs : FileSystem) (start : Location) (done steps : List String) :
    Grown (OnWay (fs.createAlong start done steps).1 start (done ++ steps)) fs
      (fs.createAlong start done steps).1 := by
  -- One step after the other is made from where the file system stands by then.
  induction steps generalizing fs done with
  | nil => exact .refl _ fs
  | cons step steps ih =>
    rw [createAlong]
    cases hmade : fs.ensureDirectory? start (done ++ [step]) with
    | none => exact .refl _ fs
    | some made =>
      have hrest := ih made (done ++ [step])
      rw [List.append_assoc, List.singleton_append] at hrest
      have hfirst := grown_ensureDirectory? hmade
      -- Where the directory was made, the steps lead also in the end.
      refine Grown.trans ⟨fun place => ?_, hfirst.nodes, hfirst.obstacles⟩ hrest
      refine (hfirst.lookup place).imp_right fun ⟨hwalk, hnew⟩ => ⟨⟨done ++ [step], ?_, ?_⟩, hnew⟩
      · exact ⟨steps, by rw [List.append_assoc, List.singleton_append]⟩
      · exact hrest.toExtends.walk_eq hwalk

/-- **Making the directories of a path** makes directories at free places to which the path leads,
and does nothing else, whether or not it gets to the end. -/
theorem grown_createDirectories (fs : FileSystem) (path : String) :
    Grown (OnWay (fs.createDirectories path).1 (startOf .working path) (stepsOf path)) fs
      (fs.createDirectories path).1 := by
  unfold createDirectories
  split
  · exact grown_createAlong fs _ [] _
  · exact .refl _ fs

/-! ### Writing -/

/-- The name at a place stands for a node that was written to, and nothing else is changed. The node
is that of an old file, or a new one that no other name stands for. -/
structure Filled (place : Location) (id : Nat) (content : Content) (fs fs' : FileSystem) :
    Prop where
  lookup : fs'.lookup place = some (.node id)
  before : fs.lookup place = some (.node id) ∨
    fs.lookup place = none ∧ ∀ other, fs.lookup other ≠ some (.node id)
  node : fs'.nodes id =
    if fs.lookup place = none then .file content else (fs.nodes id).holding content
  lookup_of_ne : ∀ other, other ≠ place → fs'.lookup other = fs.lookup other
  node_of_ne : ∀ other, other ≠ id → fs'.nodes other = fs.nodes other
  obstacles : fs'.obstacles = fs.obstacles

namespace Filled

variable {place : Location} {id : Nat} {content : Content}

/-- Of two contents that are written to a node the later one counts. -/
theorem setNode {old : Content} (h : Filled place id old fs fs') (content : Content) :
    Filled place id content fs (fs'.setNode id ((fs'.nodes id).holding content)) where
  lookup := h.lookup
  before := h.before
  node := by
    -- The second writing goes over the first one, to the same node.
    have hnode : (fs'.setNode id ((fs'.nodes id).holding content)).nodes id =
        (fs'.nodes id).holding content := if_pos rfl
    rw [hnode, h.node]
    split
    · rfl
    · exact holding_holding _ _ _
  lookup_of_ne := h.lookup_of_ne
  node_of_ne other hother := (if_neg hother).trans (h.node_of_ne other hother)
  obstacles := h.obstacles

/-- **Writing leaves all paths where they lead.** -/
theorem sameWays (h : Filled place id content fs fs') : SameWays fs fs' where
  isDirectory other := by
    by_cases hother : other = place
    · -- What was written to is no directory, and was none.
      subst hother
      rw [isDirectory_of_node h.lookup]
      rcases h.before with hold | ⟨hnone, -⟩
      · rw [isDirectory_of_node hold]
      · rw [isDirectory_of_none hnone]
    -- The name that moves is that of no link, and neither is the name that it takes.
    · rw [isDirectory, isDirectory, h.lookup_of_ne other hother]
  links other := by
    -- The node is no more and no less a link than it was, under whichever name.
    rcases h.before with hold | ⟨hnone, hnew⟩
    · have hlookup : fs'.lookup other = fs.lookup other := by
        by_cases hother : other = place
        · rw [hother, h.lookup, hold]
        · exact h.lookup_of_ne other hother
      have htarget : ∀ node, (fs'.nodes node).target? = (fs.nodes node).target? := by
        intro node
        by_cases hnode : node = id
        · rw [hnode, h.node, if_neg (by simp [hold]), target?_holding]
        · rw [h.node_of_ne node hnode]
      rw [linkAt?, linkAt?, hlookup]
      simp only [htarget]
    -- The name is new, and no other name leads to the new node.
    · by_cases hother : other = place
      · subst hother
        rw [linkAt?_of_none hnone, linkAt?_of_node h.lookup, h.node, if_pos hnone]
        rfl
      · rw [linkAt?, linkAt?, h.lookup_of_ne other hother]
        split
        · next node hlookup =>
          have hnode : node ≠ id := fun heq => hnew other (heq ▸ hlookup)
          rw [h.node_of_ne node hnode]
        · rfl
  obstacles := h.obstacles

/-- What was written is found at a path that leads there. -/
theorem find?_eq (h : Filled place id content fs fs') {path : String}
    (hplace : fs.locate true path = some place) : fs'.find? path = some (.node id) := by
  rw [find?, h.sameWays.locate_eq, hplace]
  exact h.lookup

end Filled

/-- Opening a file to write it leaves it empty. -/
theorem exists_of_openToWrite? {path : String} {id : Nat}
    (h : fs.openToWrite? path = some (fs', id)) :
    ∃ place, fs.locate true path = some place ∧ Filled place id (.text "") fs fs' := by
  obtain ⟨place, hplace, h⟩ := Option.bind_eq_some_iff.1 h
  refine ⟨place, hplace, ?_⟩
  split at h
  -- An old file is cut short, and a new one is made with no content; a directory is not opened.
  · cases h
  · next old hlookup =>
    split at h
    · cases h
    · cases h
      exact {
        lookup := hlookup
        before := .inl hlookup
        node := by rw [if_neg (by simp [hlookup])]; exact if_pos rfl
        lookup_of_ne := fun _ _ => rfl
        node_of_ne := fun _ hother => if_neg hother
        obstacles := rfl }
  -- The place is free, so the directory above it stands.
  · next hlookup =>
    split at h
    · cases h
    · cases h
      have hnames : place.names ≠ [] := names_ne_nil (isDirectory_of_none hlookup)
      exact {
        lookup := fs.lookup_set hnames _
        before := .inr ⟨hlookup, fs.lookup_ne_freshId⟩
        node := by rw [if_pos hlookup]; exact if_pos rfl
        lookup_of_ne := fun _ hother => fs.lookup_set_of_ne _ hother
        node_of_ne := fun _ hother => if_neg hother
        obstacles := rfl }

/-- A file that can be opened is written to the end where all is taken up. -/
theorem write_of_openToWrite? {path : String} {opened : FileSystem} {id : Nat}
    (hopened : fs.openToWrite? path = some (opened, id)) (hroom : opened.obstacles.room id = none)
    (content : Content) :
    fs.write path content =
      (opened.setNode id ((opened.nodes id).holding content), true) := by
  simp only [write, hopened, fill, hroom]

/-- **What writing can do.** It does nothing where the file cannot be opened. Otherwise the file to
which the path leads holds the content or, where the writing failed, fewer bytes of it than it
has. -/
theorem write_cases {path : String} {content : Content} {written : Bool}
    (h : fs.write path content = (fs', written)) :
    written = false ∧ fs' = fs ∨
    ∃ place id, fs.locate true path = some place ∧
      (written = true ∧ Filled place id content fs fs' ∨
        written = false ∧ ∃ count < content.size, Filled place id (content.firstBytes count) fs fs')
    := by
  rw [write] at h
  -- The file may not be opened, and then nothing is touched; or its content may stop short.
  split at h
  · cases h
    exact .inl ⟨rfl, rfl⟩
  · next opened id hopened =>
    obtain ⟨place, hplace, hempty⟩ := exists_of_openToWrite? hopened
    refine .inr ⟨place, id, hplace, ?_⟩
    have hwhole := hempty.setNode content
    rw [fill] at h
    split at h
    · cases h
      exact .inl ⟨rfl, hwhole⟩
    · next room hroom =>
      split at h
      · cases h
        exact .inl ⟨rfl, hwhole⟩
      · next hsize =>
        cases h
        exact .inr ⟨rfl, room, Nat.lt_of_not_le hsize, hempty.setNode _⟩

/-! ### Moving -/

/-- What stood at one place, which is no directory, stands at another one, where no directory stood;
and no longer at the first one, unless both names stood for the same node. Nothing else is changed. -/
structure Moved (source destination : Location) (fs fs' : FileSystem) : Prop where
  exists_node : ∃ id, fs.lookup source = some (.node id) ∧ fs'.lookup destination = some (.node id)
  free : fs.isDirectory destination = false
  cleared : fs.lookup source = fs.lookup destination ∧ fs' = fs ∨ fs'.lookup source = none
  lookup_of_ne : ∀ other, other ≠ source → other ≠ destination →
    fs'.lookup other = fs.lookup other
  nodes : fs'.nodes = fs.nodes
  obstacles : fs'.obstacles = fs.obstacles

/-- A node that is put under another name, where something else stood or nothing. -/
theorem moved_set {source destination : Location} {id : Nat}
    (hsource : fs.lookup source = some (.node id)) (hfree : fs.isDirectory destination = false)
    (hne : source ≠ destination) :
    Moved source destination fs ((fs.remove source).set destination (.node id)) where
  exists_node := ⟨id, hsource, (fs.remove source).lookup_set (names_ne_nil hfree) _⟩
  free := hfree
  cleared := by
    have hnames : source.names ≠ [] := names_ne_nil (isDirectory_of_node hsource)
    exact .inr (((fs.remove source).lookup_set_of_ne _ hne).trans (fs.lookup_remove hnames))
  lookup_of_ne other hother hother' :=
    ((fs.remove source).lookup_set_of_ne _ hother').trans (fs.lookup_remove_of_ne hother)
  nodes := rfl
  obstacles := rfl

/-- **What moving does** where it succeeds. -/
theorem exists_of_rename? {path target : String} (h : fs.rename? path target = some fs') :
    ∃ source destination, fs.locate false path = some source ∧
      fs.locate false target = some destination ∧ Moved source destination fs fs' := by
  obtain ⟨source, hsource, h⟩ := Option.bind_eq_some_iff.1 h
  obtain ⟨destination, hdestination, h⟩ := Option.bind_eq_some_iff.1 h
  refine ⟨source, destination, hsource, hdestination, ?_⟩
  dsimp only at h
  split at h
  · next id other hfrom hto =>
    split at h
    · next heq =>
      -- Two names of one node.
      subst heq
      cases h
      exact {
        exists_node := ⟨id, hfrom, hto⟩
        free := isDirectory_of_node hto
        cleared := .inl ⟨hfrom.trans hto.symm, rfl⟩
        lookup_of_ne := fun _ _ _ => rfl
        nodes := rfl
        obstacles := rfl }
    · next hne =>
      split at h
      · cases h
      · cases h
        refine moved_set hfrom (isDirectory_of_node hto) fun heq => hne ?_
        subst heq
        exact FileEntry.node.inj (Option.some.inj (hfrom.symm.trans hto))
  · next id hfrom hto =>
    -- Nothing stands at the new name.
    split at h
    · cases h
    · cases h
      refine moved_set hfrom (isDirectory_of_none hto) fun heq => ?_
      subst heq
      rw [hfrom] at hto
      cases hto
  · cases h

/-- Whether a file can be moved depends on the names and on where the paths lead. -/
theorem isSome_rename?_eq (hways : SameWays fs fs') (hlookup : ∀ place, fs'.lookup place =
    fs.lookup place) (path target : String) :
    (fs'.rename? path target).isSome = (fs.rename? path target).isSome := by
  rw [rename?, rename?, hways.locate_eq, hways.locate_eq]
  cases fs.locate false path with
  | none => rfl
  | some source =>
    cases fs.locate false target with
    | none => rfl
    | some destination =>
      simp only [Option.bind_eq_bind, Option.bind_some, hlookup, hways.obstacles]
      -- The results differ, but only where there is one.
      split
      · split <;> [rfl; (split <;> rfl)]
      · split <;> rfl
      · rfl

namespace Moved

variable {source destination : Location}

/-- **Moving leaves all paths where they lead** where neither place is a symbolic link. -/
theorem sameWays (h : Moved source destination fs fs') (hsource : fs.linkAt? source = none)
    (hdestination : fs.linkAt? destination = none) : SameWays fs fs' := by
  obtain ⟨id, hfrom, hto⟩ := h.exists_node
  rcases h.cleared with ⟨-, rfl⟩ | hcleared
  · exact ⟨fun _ => rfl, fun _ => rfl, rfl⟩
  have htarget : (fs.nodes id).target? = none := (linkAt?_of_node hfrom).symm.trans hsource
  refine ⟨fun place => ?_, fun place => ?_, h.obstacles⟩
  -- The new name holds the file, as it may have done before, and the old one holds nothing.
  · by_cases hplace : place = destination
    · rw [hplace, h.free, isDirectory_of_node hto]
    by_cases hplace' : place = source
    · rw [hplace', isDirectory_of_none hcleared, isDirectory_of_node hfrom]
    · rw [isDirectory, isDirectory, h.lookup_of_ne place hplace' hplace]
  -- Neither name is one of a link, before or after.
  · by_cases hplace : place = destination
    · rw [hplace, hdestination, linkAt?_of_node hto, h.nodes, htarget]
    by_cases hplace' : place = source
    · rw [hplace', hsource, linkAt?_of_none hcleared]
    · rw [linkAt?, linkAt?, h.lookup_of_ne place hplace' hplace, h.nodes]

end Moved

end CodeAssist.FileSystem
