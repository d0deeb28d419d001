import CodeAssist.Codec.Decoder
import CodeAssist.Dictionary
import Mathlib.Tactic.Common

/-!
# Parts of a value

A part of an object has some of its members, in any order, and of their values again parts
(`PartOf`); besides, it may have members under other names, as far as these are passed over.
Anything but an object is a part only of itself.

A record is read from a part of the object that it is written as: each field comes from what the
part has under its name, or is the default where the part has nothing (`Decoder.Reads.field`). This
holds of every decoder that does what the documentation of such libraries says of records, numbers,
texts and names (`Decoder.Documented`). Which fields a part has, at any depth, is seen from the paths
that lead to something in it (`Value.has`).
-/

namespace CodeAssist.Json

/-! ### Paths -/

namespace Value

/-- What an object has under a name. -/
def member? (name : String) : Value → Option Value
  | object members => members.lookup name
  | _ => none

/-- Whether a value is an object. -/
def isObject : Value → Bool
  | object _ => true
  | _ => false

/-- Whether a path of names leads to something in a value. -/
def has (v : Value) : List String → Bool
  | [] => true
  | name :: path =>
    match v.member? name with
    | some w => w.has path
    | none => false

theorem exists_members_of_isObject {v : Value} (h : v.isObject = true) :
    ∃ members, v = .object members := by
  cases v with
  | object members => exact ⟨members, rfl⟩
  | _ => cases h

theorem member?_eq_none {v : Value} (h : v.isObject = false) (name : String) :
    v.member? name = none := by
  cases v with
  | object => cases h
  | _ => rfl

end Value

/-- Which of the paths from a record to its fields, and on to the fields of these, are there. -/
def Presence : Type := List String → Bool

namespace Presence

variable {α : Type} (there : Presence)

/-- What is there within a field. -/
def under (name : String) : Presence :=
  fun path => there (name :: path)

/-- A field where it is there, and its default where it is not. -/
def keep (name : String) (x fallback : α) : α :=
  if there [name] then x else fallback

end Presence

/-! ### Parts -/

/-- One value is a part of another one, but for members that are passed over. -/
inductive PartOf (passesOver : Value → Bool) : Value → Value → Prop where
  /-- Every value is a part of itself. -/
  | whole (v : Value) : PartOf passesOver v v
  /-- An object with parts of some members, each once, and with others that are passed over. -/
  | object {members fields : List (String × Value)}
    (once : ((members.filter fun m => (fields.map Prod.fst).contains m.1).map Prod.fst).Nodup)
    (others : ∀ m ∈ members, m.1 ∉ fields.map Prod.fst → passesOver m.2 = true)
    (parts : ∀ name v w, members.lookup name = some v → fields.lookup name = some w →
      PartOf passesOver v w) :
    PartOf passesOver (.object members) (.object fields)

variable {passesOver : Value → Bool}

namespace PartOf

/-- Only an object has parts other than itself. -/
theorem eq_of_isObject {part whole : Value} (h : PartOf passesOver part whole)
    (hwhole : whole.isObject = false) : part = whole := by
  cases h with
  | whole => rfl
  | object => cases hwhole

/-- **A part of an object** is an object, also where it is the whole. -/
theorem exists_members {part : Value} {fields : List (String × Value)}
    (h : PartOf passesOver part (.object fields)) (hnodup : (fields.map Prod.fst).Nodup) :
    ∃ members, part = .object members ∧
      ((members.filter fun m => (fields.map Prod.fst).contains m.1).map Prod.fst).Nodup ∧
      (∀ m ∈ members, m.1 ∉ fields.map Prod.fst → passesOver m.2 = true) ∧
      ∀ name v w, members.lookup name = some v → fields.lookup name = some w →
        PartOf passesOver v w := by
  cases h with
  | whole =>
    -- The whole object has every field once and nothing beside the fields.
    refine ⟨fields, rfl, ?_, fun m hm hother => ?_, fun name v w hv hw => ?_⟩
    · exact hnodup.sublist (List.filter_sublist.map _)
    · exact absurd (List.mem_map_of_mem hm) hother
    · rw [Option.some.inj (hv.symm.trans hw)]
      exact .whole w
  | object once others parts => exact ⟨_, rfl, once, others, parts⟩

/-- Nothing of an object is a part of it. -/
theorem nothing (fields : List (String × Value)) :
    PartOf passesOver (.object []) (.object fields) :=
  .object .nil (by simp) (by simp)

/-- A part of an object with one more of its members is a part. -/
theorem cons_field {members fields : List (String × Value)} {name : String} {v w : Value}
    (h : PartOf passesOver (.object members) (.object fields)) (hnodup : (fields.map Prod.fst).Nodup)
    (hnew : name ∉ members.map Prod.fst) (hw : fields.lookup name = some w)
    (hv : PartOf passesOver v w) :
    PartOf passesOver (.object ((name, v) :: members)) (.object fields) := by
  obtain ⟨_, ⟨⟩, honce, hothers, hparts⟩ := h.exists_members hnodup
  refine .object ?_ (List.forall_mem_cons.2 ⟨fun hother => ?_, hothers⟩) fun other v' w' hv' hw' => ?_
  -- The new name is among the fields, once, since it was none of the members before.
  · rw [List.filter_cons]
    split
    · refine List.nodup_cons.2 ⟨fun hmem => hnew ?_, honce⟩
      exact (List.filter_sublist.map _).subset hmem
    · exact honce
  -- A name that has a value is the name of a field.
  · obtain ⟨before, after, rfl, -⟩ := List.lookup_eq_some_iff.1 hw
    simp at hother
  -- The name is looked up at the front, or behind it as before.
  · rw [List.lookup_cons] at hv'
    split at hv'
    · next heq =>
      rw [eq_of_beq heq, hw] at hw'
      exact Option.some.inj hv' ▸ Option.some.inj hw' ▸ hv
    · exact hparts other v' w' hv' hw'

/-- A part of an object with a member that the object does not have is a part. -/
theorem cons_other {members fields : List (String × Value)} {name : String} {v : Value}
    (h : PartOf passesOver (.object members) (.object fields)) (hnodup : (fields.map Prod.fst).Nodup)
    (hother : name ∉ fields.map Prod.fst) (hpass : passesOver v = true) :
    PartOf passesOver (.object ((name, v) :: members)) (.object fields) := by
  obtain ⟨_, ⟨⟩, honce, hothers, hparts⟩ := h.exists_members hnodup
  refine .object ?_ (List.forall_mem_cons.2 ⟨fun _ => hpass, hothers⟩) fun field v' w' hv' hw' => ?_
  · rwa [List.filter_cons_of_neg (by simpa using hother)]
  · rw [List.lookup_cons] at hv'
    split at hv'
    -- The new member is no field, so no field finds its value there.
    · next heq =>
      obtain ⟨before, after, rfl, -⟩ := List.lookup_eq_some_iff.1 hw'
      simp [eq_of_beq heq] at hother
    · exact hparts field v' w' hv' hw'

end PartOf

end CodeAssist.Json

namespace CodeAssist.Codec

open CodeAssist.Json

/-! ### Records that are read from parts -/

/-- What the documentation says of a decoder. A record is read from an object where the names that
it knows stand once each; a field that the object has is decoded, and one that it does not have is
its default. Numbers in range, texts and truth values are read as what they are, `null` is nothing,
and lists are read item by item. -/
structure Decoder.Documented (decoder : Decoder) : Prop where
  record : ∀ names members,
    ((members.filter fun m => names.contains m.1).map Prod.fst).Nodup →
    (∀ m ∈ members, m.1 ∉ names → decoder.passesOver m.2 = true) →
    ∃ fields, decoder.record names (.object members) = some fields ∧
      ∀ {α : Type} (name : String) (decode : Value → Option α) (fallback : α), name ∈ names →
        decoder.field fields name decode fallback =
          match members.lookup name with
          | some v => decode v
          | none => some fallback
  natUpTo : ∀ {limit n : Nat}, limit ≤ maxNatural → n ≤ limit →
    decoder.natUpTo limit (.nat n) = some n
  float : ∀ x, decoder.float (.float x) = some x
  bool : ∀ b, decoder.bool (.bool b) = some b
  text : ∀ s, decoder.text (.text s) = some s
  optional_null : ∀ {α : Type} (decode : Value → Option α),
    decoder.optional decode .null = some none
  optional_text : ∀ {α : Type} (decode : Value → Option α) (s : String),
    decoder.optional decode (.text s) = (decode (.text s)).map some
  list : ∀ {α : Type} (decode : Value → Option α) (items : List Value),
    decoder.list decode (.array items) = items.mapM decode
  name : ∀ {α : Type} (ofName? : String → Option α) (s : String),
    decoder.name ofName? (.text s) = ofName? s

namespace Decoder

/-- A record has the fields of a part of an object. -/
structure Reads (decoder : Decoder) (found : decoder.Fields) (part : Value)
    (fields : List (String × Value)) : Prop where
  field_eq : ∀ {α : Type} (name : String) (w : Value) (decode : Value → Option α) (fallback : α),
    fields.lookup name = some w → decoder.field found name decode fallback =
      match part.member? name with
      | some v => decode v
      | none => some fallback
  parts : ∀ name v w, part.member? name = some v → fields.lookup name = some w →
    PartOf decoder.passesOver v w

variable {decoder : Decoder} {part : Value} {fields : List (String × Value)}

/-- **A record is read from a part of an object** whose names are the record's. -/
theorem Documented.exists_reads (h : decoder.Documented) (names : List String)
    (hpart : PartOf decoder.passesOver part (.object fields))
    (hnames : fields.map Prod.fst = names) (hnodup : names.Nodup) :
    ∃ found, decoder.record names part = some found ∧ decoder.Reads found part fields := by
  subst hnames
  obtain ⟨members, rfl, honce, hothers, hparts⟩ := hpart.exists_members hnodup
  obtain ⟨found, hfound, hfield⟩ := h.record _ members honce hothers
  refine ⟨found, hfound, fun name w decode fallback hw => ?_, hparts⟩
  obtain ⟨before, after, rfl, -⟩ := List.lookup_eq_some_iff.1 hw
  exact hfield name decode fallback (by simp)

namespace Reads

variable {α : Type} {found : decoder.Fields}

/-- **A field of a part** is what its part of the value is decoded as, or the default. -/
theorem field (h : decoder.Reads found part fields) (name : String) {w : Value}
    (hw : fields.lookup name = some w) {decode : Value → Option α} (keeping : Presence → α)
    (hdecode : ∀ v, PartOf decoder.passesOver v w → decode v = some (keeping v.has))
    (fallback : α) :
    decoder.field found name decode fallback =
      some (Presence.keep part.has name (keeping (Presence.under part.has name)) fallback) := by
  rw [h.field_eq name w decode fallback hw]
  -- A field that was left out is the fallback's; any other is decoded from what stands there.
  cases hmember : part.member? name with
  | none =>
    have habsent : part.has [name] = false := by simp [Value.has, hmember]
    simp [Presence.keep, habsent]
  | some v =>
    have hpresent : part.has [name] = true := by simp [Value.has, hmember]
    -- The paths within the field are those of what stands there.
    have hunder : Presence.under part.has name = v.has := by
      funext path
      simp [Presence.under, Value.has, hmember]
    simp [Presence.keep, hpresent, hunder, hdecode v (h.parts name v w hmember hw)]

/-- A field that is no object is there as it is, or not at all. -/
theorem leaf (h : decoder.Reads found part fields) (name : String) {w : Value}
    (hw : fields.lookup name = some w) (hleaf : w.isObject = false) {decode : Value → Option α}
    {x : α} (hdecode : decode w = some x) (fallback : α) :
    decoder.field found name decode fallback =
      some (Presence.keep part.has name x fallback) :=
  h.field name hw (fun _ => x) (fun _ hv => by rw [hv.eq_of_isObject hleaf, hdecode]) fallback

end Reads

end Decoder

end CodeAssist.Codec
