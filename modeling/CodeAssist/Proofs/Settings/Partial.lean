import CodeAssist.Proofs.Settings.Saved

/-!
# Partial settings

An object that has some of the fields of the object of settings, in any order and with any other
members between them, stands for these settings with the other fields at their defaults. This holds
of sections as it does of their fields, whichever are left out, and of every decoder that does what
is documented.

It holds of the object exactly. Of its text it holds but for the floating-point numbers that are
kept: each is what the reader makes of the decimal that was written, which is a number again, because
it is finite. Nothing in the documentation says that it is the same number, and with the runnable
formats it may differ in the last place (`exists_part_not_kept`).
-/

namespace CodeAssist.SettingsFile

open CodeAssist.Codec (Decoder)
open CodeAssist.Json

variable {formats : Formats}

/-! ### Reading parts -/

/-- The text of a part of the settings' object is read as a part of the object with the numbers that
are read. -/
theorem decode?_part (hformats : formats.Documented) {s : Settings} (h : s.InRange)
    (hfinite : s.FloatsFinite) {part : Value}
    (hpart : PartOf formats.json.passesOver part (Codec.encodeSettings s)) (spread : Bool) :
    decode? formats false (formats.write spread part) =
      some ((s.mapFloats formats.rereadFloat).keeping part.has) := by
  have hwhole : formats.reread (Codec.encodeSettings s) =
      Codec.encodeSettings (s.mapFloats formats.rereadFloat) :=
    hformats.reread_encodeSettings h fun x hx => hformats.reread_float_eq (hfinite x hx)
  -- The text of the part is read as a part of what the text of the whole is read as.
  have hreread : PartOf formats.json.passesOver (formats.reread part)
      (Codec.encodeSettings (s.mapFloats formats.rereadFloat)) :=
    hwhole ▸ hformats.partOf_reread hpart
  rw [decode?_write hformats, Codec.decodeSettings_part hformats.json
    (h.mapFloats formats.rereadFloat) hreread, hformats.has_reread]

/-- **Partial settings** are decoded as the settings with defaults for what they leave out. From the
object itself every field that is kept comes back as it was. From its text, on one line or on many,
every field comes back but the floating-point numbers, which are what the reader makes of them. -/
theorem decode_part {s : Settings} (h : s.InRange) (hfinite : s.FloatsFinite) :
    (∀ decoder : Decoder, decoder.Documented →
      ∀ part, PartOf decoder.passesOver part (Codec.encodeSettings s) →
        Codec.decodeSettings decoder part = some (s.keeping part.has)) ∧
    ∀ formats : Formats, formats.Documented →
      ∀ part, PartOf formats.json.passesOver part (Codec.encodeSettings s) → ∀ spread,
        decode? formats false (formats.write spread part) =
          some ((s.mapFloats formats.rereadFloat).keeping part.has) := by
  constructor
  · intro decoder hdecoder part hpart
    exact Codec.decodeSettings_part hdecoder h hpart
  · intro formats hformats part hpart spread
    exact decode?_part hformats h hfinite hpart spread

/-- Settings that differ from the defaults in a field of their own and in two sections. -/
def tuned : Settings where
  maxModelLen := 100
  prompt := { suffixPercent := 0.5, completionTemplate := some "p" }
  completions := { excludedStages := [.dropBlank], repeats := { minBlockSize := 9 } }

/-- Part of their object, with two members that it does not have. -/
def partOfTuned : Value := .object [
  ("completions", .object [
    ("reflection", .object [("min_block_size", .nat 9)])]),
  ("theme", .null),
  ("prompt", .object [
    ("suffix_percent", .float 0.5), ("note", .text "half")])]

theorem partOf_tuned :
    PartOf Decoder.json.passesOver partOfTuned (Codec.encodeSettings tuned) := by
  have hrepeats : PartOf Decoder.json.passesOver (.object [("min_block_size", .nat 9)])
      (Codec.encodeRepeats tuned.completions.repeats) :=
    (PartOf.nothing _).cons_field (by decide) (by simp) rfl (.whole _)
  have hcompletions : PartOf Decoder.json.passesOver
      (.object [("reflection", .object [("min_block_size", .nat 9)])])
      (Codec.encodeCompletions tuned.completions) :=
    (PartOf.nothing _).cons_field (by decide) (by simp) rfl hrepeats
  have hprompt : PartOf Decoder.json.passesOver
      (.object [("suffix_percent", .float 0.5), ("note", .text "half")])
      (Codec.encodePrompt tuned.prompt) :=
    ((PartOf.nothing _).cons_other (by decide) (by decide) rfl).cons_field (by decide) (by simp) rfl
      (.whole _)
  -- The sections stand in another order, with a member between them that is passed over.
  exact (((PartOf.nothing _).cons_field (by decide) (by simp) rfl hprompt).cons_other (by decide)
    (by decide) rfl).cons_field (by decide) (by simp) rfl hcompletions

/-- What is read of the part: the fields that it has are those of the settings, and the others,
though set in the settings, have their defaults. -/
theorem decode_part_tuned :
    PartOf Decoder.json.passesOver partOfTuned (Codec.encodeSettings tuned) ∧
      (decode? .standard false (Formats.standard.write false partOfTuned)).map (fun s =>
        (s.maxModelLen, s.prompt.suffixPercent, s.prompt.completionTemplate,
          s.completions.excludedStages, s.completions.repeats.minBlockSize)) =
        some (2048, 0.5, none, [], 9) := by
  have hrange : tuned.InRange :=
    ⟨by decide, by decide, by decide, by decide, by decide, ⟨by decide, by decide, by decide⟩,
      by decide, by decide⟩
  have hfinite : tuned.FloatsFinite := by decide +kernel
  refine ⟨partOf_tuned, ?_⟩
  rw [(decode_part hrange hfinite).2 _ Formats.documented_standard _ partOf_tuned false]
  decide +kernel

/-- The score of settings alone. -/
def scoreAlone (s : Settings) : Value :=
  .object [("min_confidence_score", .float s.minConfidenceScore)]

/-- **Not every field that is kept comes back from a text**: there are documented formats, and the
object of settings with a finite score and nothing else, so that what is read of the score differs in
the last place. -/
theorem exists_part_not_kept :
    ∃ formats : Formats, formats.Documented ∧ unkept.FloatsFinite ∧
      PartOf formats.json.passesOver (scoreAlone unkept) (Codec.encodeSettings unkept) ∧
      ∃ loaded, decode? formats false (formats.write false (scoreAlone unkept)) = some loaded ∧
        loaded.minConfidenceScore = 8.992519018473646e-8 ∧
        loaded.minConfidenceScore ≠ unkept.minConfidenceScore := by
  have hpart : PartOf Decoder.json.passesOver (scoreAlone unkept) (Codec.encodeSettings unkept) :=
    (PartOf.nothing _).cons_field (by decide) (by simp) rfl (.whole _)
  -- The one field is evaluated; all others are the defaults and are not looked at.
  have hdecoded : (Codec.decodeSettings .json (scoreAlone unkept).reread).map
      Settings.minConfidenceScore = some 8.992519018473646e-8 := by
    decide +kernel
  obtain ⟨loaded, hloaded, hscore⟩ := Option.map_eq_some_iff.1 hdecoded
  have hread : decode? .standard false (Formats.standard.write false (scoreAlone unkept)) =
      some loaded := by
    -- The text is read as what comes back of the value, by the general reading lemma.
    rw [decode?_write Formats.documented_standard, Formats.reread_standard]
    exact hloaded
  exact ⟨.standard, Formats.documented_standard, by decide +kernel, hpart, loaded, hread, hscore,
    hscore ▸ score_unkept_ne⟩

end CodeAssist.SettingsFile
