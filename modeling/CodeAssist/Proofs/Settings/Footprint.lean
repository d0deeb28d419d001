import CodeAssist.Proofs.FileSystem.Changes
import CodeAssist.SettingsFile

/-!
# What a save leaves behind

A save takes three steps: it makes the missing directories on the way, writes the text of the
settings under a temporary name, and moves that file to the path. Writing itself has two steps, as
the file is emptied before anything is written to it. No step is taken back when a later one fails,
so a failed save can leave behind new directories, a file under the temporary name that is empty or
cut short, or the whole file there. A save that succeeds takes the temporary name for itself and
clears it again, so a file that stood there is gone.

The temporary name may be a symbolic link. Then the file that it leads to is written, wherever that
is, and it is the link that is moved.

All that a save with some result can have done is its footprint (`SettingsFile.Footprint`,
`SettingsFile.save_footprint`).
-/

namespace CodeAssist.SettingsFile

open CodeAssist.FileSystem (Filled Grown Moved OnWay startOf stepsOf)

/-! ### Footprints -/

/-- The file system when the directories of a path are made, or as many of them as can be made. -/
def prepared (fs : FileSystem) (path : String) : FileSystem :=
  (fs.createDirectories (directoryOf path)).1

/-- The content of a settings file. -/
def contentOf (formats : Formats) (s : Settings) : Content :=
  .text (encode formats s)

/-- What a save with some result has changed once the directories were made.

* Where it fails **at a directory**, nothing.
* Where it fails **at the writing**, nothing, or the file to which the temporary name leads is new or
  overwritten and holds fewer bytes than the text of the settings has, from its start.
* Where it fails **at the move**, that file holds the whole text.
* Where it **succeeds**, that file holds the whole text, and what stands under the temporary name
  itself is moved to the path itself. It is the file, unless it is a link.

A device keeps nothing of what is written to it. -/
def Footprint (formats : Formats) (fs fs' : FileSystem) (path : String) (s : Settings) :
    Except ConfigError Unit → Prop
  | .error (.directoryNotCreated _) => fs' = fs
  | .error (.temporaryNotWritten _) => fs' = fs ∨
    ∃ place id, fs.locate true (temporaryOf path) = some place ∧
      ∃ count < (contentOf formats s).size,
        Filled place id ((contentOf formats s).firstBytes count) fs fs'
  | .error (.temporaryNotRenamed _ _) =>
    ∃ place id, fs.locate true (temporaryOf path) = some place ∧
      Filled place id (contentOf formats s) fs fs'
  | .ok () =>
    ∃ place id filled source destination, fs.locate true (temporaryOf path) = some place ∧
      Filled place id (contentOf formats s) fs filled ∧
      fs.locate false (temporaryOf path) = some source ∧
      fs.locate false path = some destination ∧ Moved source destination filled fs' ∧
      (fs.linkAt? source = none → source = place)
  | .error _ => False

variable {formats : Formats} {fs fs' : FileSystem} {path : String} {s : Settings}

/-- What a save does once the directories are made, result by result. -/
theorem footprint_of_save {result : Except ConfigError Unit}
    (h : save formats fs path s = (fs', result)) :
    Footprint formats (prepared fs path) fs' path s result := by
  simp only [save] at h
  split at h
  · -- A directory could not be made.
    cases h
    rfl
  generalize hwrite : FileSystem.write (fs.createDirectories (directoryOf path)).1
    (temporaryOf path) (.text (encode formats s)) = outcome at h
  obtain ⟨written, done⟩ := outcome
  -- The file was not touched, holds all of the text or a part of it.
  have hcases := FileSystem.write_cases hwrite
  split at h
  · -- The temporary file could not be opened, or was cut short.
    next hfailed =>
    cases h
    rcases hcases with ⟨-, rfl⟩ | ⟨place, id, hplace, ⟨rfl, -⟩ | ⟨-, hcut⟩⟩
    · exact .inl rfl
    · simp at hfailed
    · exact .inr ⟨place, id, hplace, hcut⟩
  · next hdone =>
    rcases hcases with ⟨rfl, -⟩ | ⟨place, id, hplace, ⟨-, hfilled⟩ | ⟨rfl, -⟩⟩
    · simp at hdone
    · split at h
      · -- The temporary file could not be moved.
        cases h
        exact ⟨place, id, hplace, hfilled⟩
      · next hrename =>
        cases h
        obtain ⟨source, destination, hsource, hdestination, hmoved⟩ :=
          FileSystem.exists_of_rename? hrename
        -- Both names lead where they led before the file was written.
        rw [hfilled.sameWays.locate_eq] at hsource hdestination
        refine ⟨place, id, written, source, destination, hplace, hfilled, hsource, hdestination,
          hmoved, fun hlink => ?_⟩
        have hfollowed := FileSystem.locate_true_of_false hsource hlink
        exact Option.some.inj (hfollowed.symm.trans hplace)
    · simp at hdone

/-- What is in the way of operations is the same after a save. -/
theorem obstacles_of_save (h : save formats fs path s = (fs', .ok ())) :
    fs'.obstacles = fs.obstacles := by
  obtain ⟨_, _, _, _, _, -, hfilled, -, -, hmoved, -⟩ := footprint_of_save h
  have hgrown := FileSystem.grown_createDirectories fs (directoryOf path)
  exact hmoved.obstacles.trans (hfilled.obstacles.trans hgrown.obstacles)

/-- A save succeeds where the directories can be made, the temporary file can be opened and takes up
all, and its name can be moved. -/
theorem exists_save_eq_ok (formats : Formats) (fs : FileSystem) (path : String) (s : Settings)
    (hroom : ∀ id, fs.obstacles.room id = none)
    (hmade : (fs.createDirectories (directoryOf path)).2 = true)
    (hmoves : (((prepared fs path).openToWrite? (temporaryOf path)).bind fun opened =>
      opened.1.rename? (temporaryOf path) path).isSome = true) :
    ∃ saved, save formats fs path s = (saved, .ok ()) := by
  obtain ⟨renamed, hrenamed⟩ := Option.isSome_iff_exists.1 hmoves
  obtain ⟨⟨opened, id⟩, hopened, hrename⟩ := Option.bind_eq_some_iff.1 hrenamed
  obtain ⟨place, -, hempty⟩ := FileSystem.exists_of_openToWrite? hopened
  -- Nothing in the way was made on the way.
  have hobstacles : opened.obstacles = fs.obstacles :=
    hempty.obstacles.trans (FileSystem.grown_createDirectories fs (directoryOf path)).obstacles
  have hwrite := FileSystem.write_of_openToWrite? hopened
    (hobstacles ▸ hroom id : opened.obstacles.room id = none) (.text (encode formats s))
  -- What the node holds makes no difference for moving its name.
  have hways := hempty.sameWays.symm.trans (hempty.setNode (contentOf formats s)).sameWays
  have hmoved := FileSystem.isSome_rename?_eq hways (fun _ => rfl) (temporaryOf path) path
  rw [hrename, Option.isSome_some] at hmoved
  obtain ⟨saved, hsaved⟩ := Option.isSome_iff_exists.1 hmoved
  refine ⟨saved, ?_⟩
  rw [contentOf] at hsaved
  rw [prepared] at hwrite
  simp [save, hmade, hwrite, hsaved]

/-- **The footprint of a save.** Directories are made at free places on the way to the path, and
after that nothing is changed but what the footprint of the result says. -/
theorem save_footprint (formats : Formats) (fs : FileSystem) (path : String) (s : Settings) :
    Grown (OnWay (prepared fs path) (startOf .working (directoryOf path))
      (stepsOf (directoryOf path))) fs (prepared fs path) ∧
    Footprint formats (prepared fs path) (save formats fs path s).1 path s
      (save formats fs path s).2 :=
  ⟨FileSystem.grown_createDirectories fs (directoryOf path), footprint_of_save rfl⟩

/-! ### What a save does not keep -/

/-- A file with a draft, and a directory with the same name but for the extension. -/
def drafts : FileSystem where
  entries := [(⟨.above 0, ["d.tmp"]⟩, .node 0), (⟨.above 0, ["d.json"]⟩, .directory)]
  nodes _ := .file (.text "draft")
  obstacles := .none

/-- An empty file system where no file can be made with the temporary name of `a/d.json`. -/
def guarded : FileSystem :=
  let refused : Request := .makeFile ⟨.above 0, ["a", "d.tmp"]⟩
  { FileSystem.empty with obstacles := ⟨fun request => request = refused, fun _ => none⟩ }

/-- Whether a save failed at the move. -/
def isUnmoved : Except ConfigError Unit → Bool
  | .error (.temporaryNotRenamed _ _) => true
  | _ => false

theorem exists_of_isUnmoved {result : Except ConfigError Unit} (h : isUnmoved result = true) :
    ∃ temporary target, result = .error (.temporaryNotRenamed temporary target) := by
  unfold isUnmoved at h
  split at h
  · exact ⟨_, _, rfl⟩
  · cases h

/-- **A save is not all or nothing.** One that fails at the directory `d.json` has overwritten the
file `d.tmp`; one that fails because its temporary file is refused has made the directory `a`; and one
that succeeds at `d.cfg` has taken the file `d.tmp` away. -/
theorem save_footprint_drafts :
    (isUnmoved (save .standard drafts "d.json" {}).2 = true ∧
      drafts.readText? "d.tmp" = some "draft" ∧
      ∃ id, (save .standard drafts "d.json" {}).1.find? "d.tmp" = some (.node id) ∧
        (save .standard drafts "d.json" {}).1.nodes id = .file (contentOf .standard {})) ∧
    ((save .standard guarded "a/d.json" {}).2.toOption = none ∧ guarded.exists? "a" = false ∧
      (save .standard guarded "a/d.json" {}).1.exists? "a" = true) ∧
    (save .standard drafts "d.cfg" {}).2.toOption = some () ∧ drafts.exists? "d.tmp" = true ∧
      (save .standard drafts "d.cfg" {}).1.exists? "d.tmp" = false := by
  have hunmoved : isUnmoved (save .standard drafts "d.json" {}).2 = true := by decide +kernel
  -- The first save fails at its last step, so it leaves the temporary file with all of the text.
  refine ⟨⟨hunmoved, by decide +kernel, ?_⟩,
    ⟨by decide +kernel, by decide +kernel, by decide +kernel⟩,
    by decide +kernel, by decide +kernel, by decide +kernel⟩
  obtain ⟨temporary, target, hresult⟩ := exists_of_isUnmoved hunmoved
  have hfootprint := save_footprint .standard drafts "d.json" {}
  rw [hresult] at hfootprint
  obtain ⟨hgrown, place, id, hplace, hfilled⟩ := hfootprint
  have htemporary : temporaryOf "d.json" = "d.tmp" := by decide +kernel
  rw [htemporary] at hplace
  refine ⟨id, hfilled.find?_eq hplace, ?_⟩
  -- The draft stood there, so the file is an old one.
  have hfound : (prepared drafts "d.json").find? "d.tmp" = some (.node 0) := by decide +kernel
  rw [FileSystem.find?, hplace, Option.bind_eq_bind, Option.bind_some] at hfound
  rw [hfilled.node, if_neg (by simp [hfound]), hgrown.nodes]
  rfl

end CodeAssist.SettingsFile
