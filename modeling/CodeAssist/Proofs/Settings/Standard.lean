import CodeAssist.Proofs.Json.FiniteNumbers
import CodeAssist.Proofs.Json.RoundTrip
import CodeAssist.Proofs.Settings.Formats

/-!
# The runnable formats do what is documented

The decoders of both dialects read what the documentation promises
(`Decoder.documented_ofDialect`), because a record is the list of its fields. The runnable writer and
readers satisfy all that settings rely on (`Formats.documented_standard`): what they read where a
value was written is computed by `Value.reread`, whose only loss is that of numbers.
-/

namespace CodeAssist

open CodeAssist.Codec (Decoder)
open CodeAssist.Json
open CodeAssist.Json.Decode (Dialect)

/-! ### Decoders -/

/-- **The decoder of a dialect** does what is documented. -/
theorem Codec.Decoder.documented_ofDialect (dialect : Dialect) :
    (Decoder.ofDialect dialect).Documented where
  record names members honce hothers := by
    refine ⟨⟨members.filter fun m => names.contains m.1, false⟩, ?_, ?_⟩
    · show Decode.record dialect names (.object members) = _
      simp only [Decode.record, List.partition_eq_filter_filter]
      -- The names that are not known are those whose values are passed over.
      refine if_pos (Bool.and_eq_true_iff.2
        ⟨decide_eq_true honce, List.all_eq_true.2 fun m hm => ?_⟩)
      obtain ⟨hm, hother⟩ := List.mem_filter.1 hm
      exact hothers m hm (by simpa using hother)
    -- A known name is looked up among all members just as among the known ones.
    · intro α name decode fallback hname
      have hlookup := lookup_filter_of_pos (p := names.contains) (List.contains_iff_mem.2 hname)
        members
      show Decode.Record.withDefault _ name decode fallback = _
      cases hfound : members.lookup name with
      | none => simp only [Decode.Record.withDefault, hlookup, hfound]
      | some v => simp only [Decode.Record.withDefault, hlookup, hfound]
  natUpTo _ hn := if_pos hn
  float _ := rfl
  bool _ := rfl
  text _ := rfl
  optional_null _ := rfl
  optional_text _ _ := rfl
  list _ _ := rfl
  name _ _ := rfl

/-! ### Whole formats -/

namespace Json

/-- A numeral is read as a number, or as nothing. -/
theorem Numeral.isObject_value (numeral : Numeral) : numeral.value.isObject = false := by
  unfold Numeral.value
  dsimp only
  repeat' split
  all_goals rfl

theorem Number.isObject_reread (n : Number) : n.reread.isObject = false := by
  unfold reread
  split
  · exact Numeral.isObject_value _
  · rfl

namespace Value

theorem rereadMembers_eq_map (members : List (String × Value)) :
    rereadMembers members = members.map fun m => (m.1, m.2.reread) := by
  induction members with
  | nil => rfl
  | cons m members ih => rw [rereadMembers, ih, List.map_cons]

theorem rereadItems_eq_map (items : List Value) : rereadItems items = items.map reread := by
  induction items with
  | nil => rfl
  | cons v items ih => rw [rereadItems, ih, List.map_cons]

end Value

end Json

namespace Formats

/-- What the runnable reader reads where a value was written. -/
theorem reread_standard (v : Value) : standard.reread v = v.reread := by
  have hread : standard.readJson (standard.write true v) = some v.reread := read?_renderAt true v
  rw [reread, hread, Option.getD_some]

/-- **The runnable formats** do what is documented. -/
theorem documented_standard : standard.Documented where
  json := Decoder.documented_ofDialect .json
  passesOver _ := rfl
  read_write spread v := by
    rw [reread_standard]
    exact read?_renderAt spread v
  reread_object members := by
    simp only [reread_standard, Value.reread, Value.rereadMembers_eq_map]
  reread_array items := by
    rw [funext reread_standard, Value.reread, Value.rereadItems_eq_map]
  reread_text s := reread_standard (.text s)
  reread_bool b := reread_standard (.bool b)
  reread_null := reread_standard .null
  reread_nat hn := (reread_standard _).trans (Number.reread_natural hn)
  reread_float hx := by
    rw [reread_standard]
    exact Number.exists_reread_of_isFinite hx
  reread_other {v} hv := by
    rw [reread_standard]
    -- A number comes back as a number or as nothing, and the simple values as they are.
    cases v with
    | object => cases hv
    | number n => exact n.isObject_reread
    | _ => rfl
  -- With members or without, an object's text begins with its brace.
  write_object spread members := by
    cases members with
    | nil => exact ⟨_, rfl⟩
    | cons => exact ⟨_, rfl⟩
  readToml_brace cs := by
    show Toml.read? (String.ofList ('\x7b' :: cs)) = none
    rw [Toml.read?, String.toList_ofList]
    rfl

end Formats

/-! ### Numbers that come back -/

/-- Whether a number comes back when its text is read. -/
def Json.Number.isKept (n : Number) : Bool :=
  match n.reread with
  | .number m => m = n
  | _ => false

theorem Json.Number.reread_of_isKept {n : Number} (h : n.isKept = true) :
    n.reread = .number n := by
  unfold isKept at h
  split at h
  · next m hm => rw [hm, of_decide_eq_true h]
  · cases h

/-- The runnable formats keep the floating-point numbers that come back. -/
theorem Settings.floatsKept_standard {s : Settings}
    (h : ∀ x ∈ s.floats, (Number.float x).isKept = true) : s.FloatsKept .standard := by
  intro x hx
  rw [Formats.reread_standard]
  exact Number.reread_of_isKept (h x hx)

end CodeAssist
