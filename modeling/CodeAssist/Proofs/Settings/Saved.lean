import CodeAssist.Proofs.Settings.Footprint
import CodeAssist.Proofs.Settings.Standard

/-!
# Settings that are saved and loaded

Saving puts the text of the settings at the path (`SettingsFile.exists_found_of_save`), because the
file that was written is found again under its name, and then under the name to which that was moved.
Neither holds of symbolic links: where the temporary name is one, it is the link that is moved, and
where the path is one, the way to the path may lead through it.

Loading chooses the notation by the extension, while saving always writes JSON. So settings come
back from a path that is not said to be TOML, and one that is said to be holds a text that is no
TOML document, as none starts with a brace (`SettingsFile.load_of_save`). The floating-point numbers
have to be of those that come back when they are written and read.
-/

namespace CodeAssist.SettingsFile

open CodeAssist.FileSystem (Filled Moved)
open CodeAssist.Json

variable {formats : Formats} {fs fs' : FileSystem} {path : String} {s : Settings}

/-! ### What is saved -/

/-- Where a path itself names a node, that is a regular file. -/
def IsPlain (fs : FileSystem) (path : String) : Prop :=
  ∀ place id, fs.locate false path = some place → fs.lookup place = some (.node id) →
    ∃ content, fs.nodes id = .file content

/-- A path itself names no symbolic link. -/
def IsUnlinked (fs : FileSystem) (path : String) : Prop :=
  ∀ place, fs.locate false path = some place → fs.linkAt? place = none

theorem IsPlain.isUnlinked (h : IsPlain fs path) : IsUnlinked fs path := by
  intro place hplace
  unfold FileSystem.linkAt?
  split
  · next id hlookup =>
    obtain ⟨content, hcontent⟩ := h place id hplace hlookup
    rw [hcontent]
    rfl
  · rfl

/-- **Saved settings are found at their path**, as their text, where neither the path nor the
temporary name is a symbolic link, nor the latter a device. -/
theorem exists_found_of_save (h : save formats fs path s = (fs', .ok ()))
    (htemporary : IsPlain (prepared fs path) (temporaryOf path))
    (hpath : IsUnlinked (prepared fs path) path) :
    ∃ id, fs'.find? path = some (.node id) ∧ fs'.nodes id = .file (contentOf formats s) := by
  -- The content stands at the place of the temporary file, whose name is then moved.
  obtain ⟨place, id, filled, source, destination, -, hfilled, hsource, hdestination, hmoved,
    hsame⟩ := footprint_of_save h
  -- No link stood at the temporary path, so the moved name is the one that was written through.
  obtain rfl : source = place := hsame (htemporary.isUnlinked source hsource)
  -- The text stands in a regular file, whether that is new or was there.
  have hnode : filled.nodes id = .file (contentOf formats s) := by
    rw [hfilled.node]
    split
    · rfl
    · next hsome =>
      have hold := hfilled.before.resolve_right fun hnew => hsome hnew.1
      obtain ⟨old, hcontent⟩ := htemporary source id hsource hold
      rw [hcontent]
      rfl
  -- No link has come or gone, so the path leads to where the file was moved.
  have hways := hfilled.sameWays.trans (hmoved.sameWays
    ((hfilled.sameWays.links source).trans (htemporary.isUnlinked source hsource))
    ((hfilled.sameWays.links destination).trans (hpath destination hdestination)))
  have hlocate : fs'.locate true path = some destination :=
    FileSystem.locate_true_of_false ((hways.locate_eq false path).trans hdestination)
      ((hways.links destination).trans (hpath destination hdestination))
  obtain ⟨moved, hfrom, hto⟩ := hmoved.exists_node
  rw [hfilled.lookup] at hfrom
  cases hfrom
  refine ⟨id, ?_, hmoved.nodes ▸ hnode⟩
  rw [FileSystem.find?, hlocate]
  exact hto

/-- What is found can be read, unless reading it is refused. -/
theorem readText?_of_find? {id : Nat} {text : String} (hfind : fs.find? path = some (.node id))
    (hnode : fs.nodes id = .file (.text text)) (hread : fs.obstacles.refuses (.read id) = false) :
    fs.readText? path = some text := by
  simp [FileSystem.readText?, hfind, hnode, hread]

/-- Where nothing was but directories, no path names a file when the directories of one are made. -/
theorem isPlain_prepared (h : ∀ place id, fs.lookup place ≠ some (.node id)) (path other : String) :
    IsPlain (prepared fs path) other := by
  intro place id _ hlookup
  have hgrown := FileSystem.grown_createDirectories fs (directoryOf path)
  rcases hgrown.lookup place with hsame | ⟨-, -, hmade⟩
  · exact absurd (hsame.symm.trans hlookup) (h place id)
  · exact absurd (hmade.symm.trans hlookup) (by simp)

/-! ### What its text is read as -/

/-- Loading a text makes of it what the extension asks for. -/
theorem load_of_readText? (formats : Formats) {text : String}
    (h : fs.readText? path = some text) :
    load formats fs path =
      match decode? formats (FilePath.extension? path = some "toml") text with
      | none => .error (.unparsableFile path)
      | some settings =>
        match settings.fault? with
        | some fault => .error (.invalidFile path fault)
        | none => .ok settings := by
  -- What can be read is there.
  have hexists : fs.exists? path = true := by
    rw [FileSystem.exists?]
    cases hfind : fs.find? path with
    | none => simp [FileSystem.readText?, hfind] at h
    | some entry => rfl
  simp only [load, hexists, h]
  rfl

/-- The text of settings is a JSON object, which is no TOML document. -/
theorem decode?_encode_toml (hformats : formats.Documented) (s : Settings) :
    decode? formats true (encode formats s) = none := by
  obtain ⟨cs, hcs⟩ := hformats.write_object true _
  have hread : formats.readToml (encode formats s) = none := by
    rw [encode, Codec.encodeSettings, hcs, hformats.readToml_brace]
  simp [decode?, hread]

/-- A text that was written is read as JSON, and what comes back of its value is decoded. -/
theorem decode?_write (hformats : formats.Documented) (spread : Bool) (v : Value) :
    decode? formats false (formats.write spread v) =
      Codec.decodeSettings formats.json (formats.reread v) := by
  simp [decode?, hformats.read_write]

/-- The text of settings under an extension that asks for TOML cannot be parsed. -/
theorem load_toml (hformats : formats.Documented)
    (hread : fs.readText? path = some (encode formats s))
    (htoml : FilePath.extension? path = some "toml") :
    load formats fs path = .error (.unparsableFile path) := by
  rw [load_of_readText? formats hread, decide_eq_true htoml, decode?_encode_toml hformats]

/-! ### Saving and loading -/

/-- **Saved settings load back**, except from a path whose extension asks for TOML: that file holds
JSON and cannot be parsed. The path has to lead to the text that was written. It does where neither
the path nor the temporary name was a symbolic link, nor the latter a device, and the file may be
read. -/
theorem load_of_save (hformats : formats.Documented)
    (hsave : save formats fs path s = (fs', .ok ())) (hvalid : s.fault? = none)
    (hrange : s.InRange) (hkept : s.FloatsKept formats) :
    (fs'.readText? path = some (encode formats s) →
      load formats fs' path =
        if FilePath.extension? path = some "toml" then .error (.unparsableFile path)
        else .ok s) ∧
    (IsPlain (prepared fs path) (temporaryOf path) → IsUnlinked (prepared fs path) path →
      ∃ id, fs'.find? path = some (.node id) ∧
        (fs'.obstacles.refuses (.read id) = false →
          fs'.readText? path = some (encode formats s))) := by
  constructor
  -- The format is chosen by the file name, and a saved text opens with a brace.
  · intro hread
    split_ifs with htoml
    · exact load_toml hformats hread htoml
    · have hdecoded : decode? formats false (encode formats s) = some s := by
        rw [encode, decode?_write hformats, hformats.reread_encodeSettings_of_kept hrange hkept,
          Codec.decodeSettings_encodeSettings hformats.json hrange]
      rw [load_of_readText? formats hread, decide_eq_false htoml, hdecoded]
      simp only [hvalid]
  · intro htemporary hpath
    obtain ⟨id, hfind, hnode⟩ := exists_found_of_save hsave htemporary hpath
    exact ⟨id, hfind, readText?_of_find? hfind hnode⟩

/-- The defaults are in range. -/
theorem inRange_defaults : ({} : Settings).InRange where
  version := by decide
  maxModelLen := by decide
  charsPerToken := by decide
  minBlockLines := by decide
  maxSignatureTokens := by decide
  completions := ⟨by decide, by decide, by decide⟩
  generations := ⟨by decide, by decide⟩

theorem fault?_defaults : ({} : Settings).fault? = none :=
  Option.isNone_iff_eq_none.1 (by decide +kernel)

/-- No name stands for a file in the empty file system. -/
theorem lookup_empty_ne_node (place : Location) (id : Nat) :
    FileSystem.empty.lookup place ≠ some (.node id) := by
  unfold FileSystem.lookup
  split
  · simp
  · simp [FileSystem.empty]

/-- What is saved in the empty file system is read there. -/
theorem readText?_of_save_empty (h : save formats .empty path s = (fs', .ok ())) :
    fs'.readText? path = some (encode formats s) := by
  have hplain := isPlain_prepared lookup_empty_ne_node path
  obtain ⟨id, hfind, hnode⟩ := exists_found_of_save h (hplain _) (hplain _).isUnlinked
  exact readText?_of_find? hfind hnode (by rw [obstacles_of_save h]; rfl)

/-- Defaults that are saved as `c.json` in an empty directory load back. -/
theorem load_of_save_defaults :
    ∃ fs, save .standard .empty "c.json" {} = (fs, .ok ()) ∧
      load .standard fs "c.json" = .ok {} := by
  obtain ⟨fs, hsave⟩ := exists_save_eq_ok .standard .empty "c.json" {} (fun _ => rfl)
    (by decide +kernel) (by decide +kernel)
  have hload := (load_of_save Formats.documented_standard hsave fault?_defaults inRange_defaults
    (Settings.floatsKept_standard (by decide +kernel))).1 (readText?_of_save_empty hsave)
  rw [if_neg (by decide +kernel)] at hload
  exact ⟨fs, hsave, hload⟩

/-! ### What does not load back -/

/-- Settings with a floating-point number that is written with sixteen digits and, by the runnable
reader, read as its neighbour. -/
def unkept : Settings where
  minConfidenceScore := 8.992519018473645e-8

theorem score_unkept_ne : (8.992519018473646e-8 : Decimal.Double) ≠ unkept.minConfidenceScore := by
  decide +kernel

/-- Settings that differ from the defaults. -/
def shortened : Settings where
  maxModelLen := 100

/-- The temporary name of `c.json` leads to `c.json`. -/
def linked : FileSystem where
  entries := [(⟨.above 0, ["c.tmp"]⟩, .node 0)]
  nodes _ := .link "c.json"
  obstacles := .none

/-- **Not all settings that are saved load back.** With any documented formats the defaults do not
from `c.toml`. From `c.json` a floating-point number may come back changed in its last place. And
where the temporary name is a link to the path, the link takes the place of the file that was
written, leads to itself, and stands for a missing file. -/
theorem exists_save_not_loaded :
    (∀ formats : Formats, formats.Documented → ∃ fs,
      save formats .empty "c.toml" {} = (fs, .ok ()) ∧ ({} : Settings).fault? = none ∧
        ({} : Settings).FloatsFinite ∧ load formats fs "c.toml" = .error (.unparsableFile "c.toml")) ∧
    (∃ fs loaded, save .standard .empty "c.json" unkept = (fs, .ok ()) ∧ unkept.fault? = none ∧
      unkept.FloatsFinite ∧ load .standard fs "c.json" = .ok loaded ∧
      loaded.minConfidenceScore = 8.992519018473646e-8 ∧
      loaded.minConfidenceScore ≠ unkept.minConfidenceScore) ∧
    ∃ fs, save .standard linked "c.json" shortened = (fs, .ok ()) ∧ shortened.fault? = none ∧
      shortened.FloatsFinite ∧ load .standard fs "c.json" = .ok {} ∧
      shortened.maxModelLen ≠ ({} : Settings).maxModelLen := by
  -- The format of the file name, a float that is not read back, and a link at the path itself.
  refine ⟨fun formats hformats => ?_, ?_, ?_⟩
  · obtain ⟨fs, hsave⟩ := exists_save_eq_ok formats .empty "c.toml" {} (fun _ => rfl)
      (by decide +kernel) (by decide +kernel)
    exact ⟨fs, hsave, fault?_defaults, by decide +kernel,
      load_toml hformats (readText?_of_save_empty hsave) (by decide +kernel)⟩
  · obtain ⟨fs, hsave⟩ := exists_save_eq_ok .standard .empty "c.json" unkept (fun _ => rfl)
      (by decide +kernel) (by decide +kernel)
    -- All that comes back of the value is evaluated: it is sound, and one number has changed.
    have hdecoded : (Codec.decodeSettings .json (Codec.encodeSettings unkept).reread).map
        (fun s => (s.fault?.isNone, s.minConfidenceScore)) =
          some (true, 8.992519018473646e-8) := by
      decide +kernel
    obtain ⟨loaded, hloaded, hfields⟩ := Option.map_eq_some_iff.1 hdecoded
    obtain ⟨hsound, hscore⟩ := Prod.mk.inj hfields
    have hread : decode? .standard false (encode .standard unkept) = some loaded := by
      rw [encode, decode?_write Formats.documented_standard, Formats.reread_standard]
      exact hloaded
    have hload := load_of_readText? .standard (readText?_of_save_empty hsave)
    rw [decide_eq_false (by decide +kernel), hread] at hload
    simp only [Option.isNone_iff_eq_none.1 hsound] at hload
    exact ⟨fs, loaded, hsave, Option.isNone_iff_eq_none.1 (by decide +kernel), by decide +kernel,
      hload, hscore, hscore ▸ score_unkept_ne⟩
  · obtain ⟨fs, hsave⟩ := exists_save_eq_ok .standard linked "c.json" shortened (fun _ => rfl)
      (by decide +kernel) (by decide +kernel)
    -- The link leads to itself, so nothing stands at the path.
    have hmissing : (save .standard linked "c.json" shortened).1.exists? "c.json" = false := by
      decide +kernel
    rw [hsave] at hmissing
    refine ⟨fs, hsave, Option.isNone_iff_eq_none.1 (by decide +kernel), by decide +kernel, ?_,
      by decide⟩
    simp [load, hmissing]

end CodeAssist.SettingsFile
