import CodeAssist.Formats
import CodeAssist.Proofs.Decimal.Magnitude
import CodeAssist.Proofs.Settings.Codec

/-!
# What settings rely on

The writer and the readers of settings files belong to libraries for the notations, so they are a
parameter, and what their documentation says is a hypothesis (`Formats.Documented`): what is written
is read again, as the same value but for numbers that the notation does not have; and a text that
begins with a brace is no TOML document.

Nothing is said of *which* floating-point number is read where one was written, as the decimal of a
number is rounded when it is written and again when it is read. So the value of settings comes back
with the numbers that are read (`Formats.Documented.reread_encodeSettings`), and unchanged where
these are the same (`Settings.FloatsKept`). A part of the value comes back as a part, with the same
fields (`Formats.Documented.partOf_reread`, `Formats.Documented.has_reread`).
-/

namespace CodeAssist

open CodeAssist.Json

/-! ### Documented formats -/

/-- What the documentation says of the writer and the readers. Nesting plays no part in it: settings
are nested three deep, and what a record passes over is skipped, however deep it is. -/
structure Formats.Documented (formats : Formats) : Prop where
  json : formats.json.Documented
  /-- Any JSON value may stand under a name that a record does not know. -/
  passesOver : ∀ v, formats.json.passesOver v = true
  /-- What is written, on one line or on many, is read. -/
  read_write : ∀ spread v, formats.readJson (formats.write spread v) = some (formats.reread v)
  reread_object : ∀ members, formats.reread (.object members) =
    .object (members.map fun m => (m.1, formats.reread m.2))
  reread_array : ∀ items, formats.reread (.array items) = .array (items.map formats.reread)
  reread_text : ∀ s, formats.reread (.text s) = .text s
  reread_bool : ∀ b, formats.reread (.bool b) = .bool b
  reread_null : formats.reread .null = .null
  reread_nat : ∀ {n : Nat}, n ≤ maxNatural → formats.reread (.nat n) = .nat n
  /-- A finite number is read as a number of the same kind. -/
  reread_float : ∀ {x : Decimal.Double}, x.IsFinite → ∃ y, formats.reread (.float x) = .float y
  /-- Nothing else is read as an object. -/
  reread_other : ∀ {v : Value}, v.isObject = false → (formats.reread v).isObject = false
  write_object : ∀ spread members, ∃ cs,
    formats.write spread (.object members) = String.ofList ('\x7b' :: cs)
  readToml_brace : ∀ cs, formats.readToml (String.ofList ('\x7b' :: cs)) = none

/-! ### Floating-point numbers of settings -/

/-- The floating-point numbers of the thresholds. -/
def RepeatSettings.floats (s : RepeatSettings) : List Decimal.Double :=
  [s.minSpecialChars, s.minDiversityChars]

/-- The thresholds with other floating-point numbers. -/
def RepeatSettings.mapFloats (f : Decimal.Double → Decimal.Double) (s : RepeatSettings) :
    RepeatSettings :=
  { s with
    minSpecialChars := f s.minSpecialChars
    minDiversityChars := f s.minDiversityChars }

namespace Settings

/-- The floating-point numbers of settings. -/
def floats (s : Settings) : List Decimal.Double :=
  [s.minConfidenceScore, s.prompt.importsPercent, s.prompt.suffixPercent] ++
    s.completions.repeats.floats ++ s.generations.repeats.floats

/-- Settings whose floating-point numbers are all finite. -/
def FloatsFinite (s : Settings) : Prop :=
  ∀ x ∈ s.floats, x.IsFinite

instance (s : Settings) : Decidable s.FloatsFinite :=
  inferInstanceAs (Decidable (∀ x ∈ s.floats, x.IsFinite))

/-- Settings whose floating-point numbers are all read as what was written. -/
def FloatsKept (formats : Formats) (s : Settings) : Prop :=
  ∀ x ∈ s.floats, formats.reread (.float x) = .float x

/-- Settings with other floating-point numbers. -/
def mapFloats (f : Decimal.Double → Decimal.Double) (s : Settings) : Settings :=
  { s with
    minConfidenceScore := f s.minConfidenceScore
    prompt := { s.prompt with
      importsPercent := f s.prompt.importsPercent
      suffixPercent := f s.prompt.suffixPercent }
    completions := { s.completions with repeats := s.completions.repeats.mapFloats f }
    generations := { s.generations with repeats := s.generations.repeats.mapFloats f } }

theorem InRange.mapFloats {s : Settings} (h : s.InRange)
    (f : Decimal.Double → Decimal.Double) : (s.mapFloats f).InRange where
  version := h.version
  maxModelLen := h.maxModelLen
  charsPerToken := h.charsPerToken
  minBlockLines := h.minBlockLines
  maxSignatureTokens := h.maxSignatureTokens
  completions := ⟨h.completions.maxFixAttempts, h.completions.repeats.1, h.completions.repeats.2⟩
  generations := ⟨h.generations.1, h.generations.2⟩

end Settings

namespace Formats.Documented

variable {formats : Formats} (h : formats.Documented)
include h

/-! ### Settings that are written and read -/

theorem reread_float_eq {x : Decimal.Double} (hx : x.IsFinite) :
    formats.reread (.float x) = .float (formats.rereadFloat x) := by
  obtain ⟨y, hy⟩ := h.reread_float hx
  rw [rereadFloat, hy]
  rfl

theorem reread_optionalText (s : Option String) :
    formats.reread (.optional .text s) = .optional .text s := by
  cases s with
  | none => exact h.reread_null
  | some s => exact h.reread_text s

theorem reread_names {α : Type} (name : α → String) (xs : List α) :
    formats.reread (.array (xs.map fun x => .text (name x))) =
      .array (xs.map fun x => .text (name x)) := by
  rw [h.reread_array, List.map_map]
  exact congrArg _ (List.map_congr_left fun x _ => h.reread_text (name x))

variable {f : Decimal.Double → Decimal.Double}

theorem reread_encodeRepeats {s : RepeatSettings} (hrange : s.InRange)
    (hfloats : ∀ x ∈ s.floats, formats.reread (.float x) = .float (f x)) :
    formats.reread (Codec.encodeRepeats s) = Codec.encodeRepeats (s.mapFloats f) := by
  simp only [RepeatSettings.floats, List.forall_mem_cons] at hfloats
  simp only [Codec.encodeRepeats, RepeatSettings.mapFloats, h.reread_object, List.map_cons,
    List.map_nil, h.reread_nat hrange.minBlockSize, h.reread_nat hrange.echoedLineMinChars,
    h.reread_bool, hfloats.1, hfloats.2.1]

/-- **The value of settings comes back** when it was written, with what is read for its
floating-point numbers. -/
theorem reread_encodeSettings {s : Settings} (hrange : s.InRange)
    (hfloats : ∀ x ∈ s.floats, formats.reread (.float x) = .float (f x)) :
    formats.reread (Codec.encodeSettings s) = Codec.encodeSettings (s.mapFloats f) := by
  -- A version is a number of 32 bits.
  have hversion : s.version ≤ maxNatural := Nat.le_trans hrange.version (by decide)
  -- Each section has its own floats, and all of them come back as `hfloats` says.
  simp only [Settings.floats, List.forall_mem_append, List.forall_mem_cons] at hfloats
  obtain ⟨⟨⟨hscore, himports, hsuffix, -⟩, hcompletions⟩, hgenerations⟩ := hfloats
  simp only [Codec.encodeSettings, Codec.encodeTokens, Codec.encodeAnalysis, Codec.encodePrompt,
    Codec.encodeCompletions, Codec.encodeGenerations, Settings.mapFloats, h.reread_object,
    List.map_cons, List.map_nil, h.reread_nat hversion, h.reread_nat hrange.maxModelLen,
    h.reread_nat hrange.charsPerToken, h.reread_nat hrange.minBlockLines,
    h.reread_nat hrange.maxSignatureTokens, h.reread_nat hrange.completions.maxFixAttempts,
    h.reread_text, h.reread_bool, h.reread_optionalText, h.reread_names, hscore, himports, hsuffix,
    h.reread_encodeRepeats hrange.completions.repeats hcompletions,
    h.reread_encodeRepeats hrange.generations hgenerations]

/-- The value of settings comes back unchanged where its floating-point numbers do. -/
theorem reread_encodeSettings_of_kept {s : Settings} (hrange : s.InRange)
    (hkept : s.FloatsKept formats) :
    formats.reread (Codec.encodeSettings s) = Codec.encodeSettings s :=
  h.reread_encodeSettings (f := id) hrange hkept

/-! ### Parts that are written and read -/

theorem member?_reread (name : String) (v : Value) :
    (formats.reread v).member? name = (v.member? name).map formats.reread := by
  cases hobject : v.isObject with
  | true =>
    obtain ⟨members, rfl⟩ := v.exists_members_of_isObject hobject
    rw [h.reread_object]
    exact lookup_map_snd formats.reread name members
  | false =>
    rw [Value.member?_eq_none hobject, Value.member?_eq_none (h.reread_other hobject)]
    rfl

/-- The text of a value has the same paths. -/
theorem has_reread (v : Value) : (formats.reread v).has = v.has := by
  funext path
  induction path generalizing v with
  | nil => rfl
  | cons name path ih =>
    rw [Value.has, Value.has, h.member?_reread]
    cases v.member? name with
    | none => rfl
    | some w => exact ih w

/-- The text of a part of a value is read as a part of what the text of the value is read as. -/
theorem partOf_reread {part whole : Value} (hpart : PartOf formats.json.passesOver part whole) :
    PartOf formats.json.passesOver (formats.reread part) (formats.reread whole) := by
  -- The members' own parts are taken in the order of the relation, so the induction is on it.
  induction hpart with
  | whole v => exact .whole _
  | @object members fields once others parts ih =>
    have hnames : ∀ entries : List (String × Value),
        (entries.map fun m => (m.1, formats.reread m.2)).map Prod.fst = entries.map Prod.fst :=
      fun entries => List.map_map
    rw [h.reread_object, h.reread_object]
    refine .object ?_ (fun m _ _ => h.passesOver m.2) fun name v w hv hw => ?_
    · -- The names are the same, so they stand as often as before.
      rw [hnames, List.filter_map, List.map_map]
      exact once
    -- What stands under a name comes back from what stood there.
    · rw [lookup_map_snd, Option.map_eq_some_iff] at hv hw
      obtain ⟨v, hv, rfl⟩ := hv
      obtain ⟨w, hw, rfl⟩ := hw
      exact ih name v w hv hw

end Formats.Documented

end CodeAssist
