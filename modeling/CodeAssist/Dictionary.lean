/-!
# Dictionaries with text keys

A dictionary keeps its entries in ascending order of their keys, each key once, so that it can be
written out in the order in which it stands. The order is part of the type: `insert` keeps it
because the new entry goes before the first larger key.
-/

namespace CodeAssist

/-! ### Entries under their keys -/

section Lookup

variable {κ α β : Type} [BEq κ]

/-- A key has the image of its value where all values are mapped. -/
theorem lookup_map_snd (f : α → β) (key : κ) (entries : List (κ × α)) :
    (entries.map fun entry => (entry.1, f entry.2)).lookup key = (entries.lookup key).map f := by
  induction entries with
  | nil => rfl
  | cons entry rest ih =>
    rw [List.map_cons, List.lookup_cons, List.lookup_cons, ih]
    cases key == entry.1 <;> rfl

variable [LawfulBEq κ]

/-- Leaving out entries of other keys changes nothing for a key. -/
theorem lookup_filter_of_pos {p : κ → Bool} {key : κ} (h : p key = true)
    (entries : List (κ × α)) :
    (entries.filter fun entry => p entry.1).lookup key = entries.lookup key := by
  induction entries with
  | nil => rfl
  | cons entry rest ih =>
    rw [List.filter_cons, List.lookup_cons]
    cases hkey : key == entry.1 with
    | true => rw [← eq_of_beq hkey, if_pos h, List.lookup_cons, hkey]
    | false =>
      split
      · rw [List.lookup_cons, hkey]
        exact ih
      · exact ih

end Lookup

/-! ### Ordered insertion -/

/-- Puts an entry where its key belongs and removes the one that had the key. -/
def insertEntry {α : Type} (key : String) (value : α) : List (String × α) → List (String × α)
  | [] => [(key, value)]
  | entry :: rest =>
    if key < entry.1 then (key, value) :: entry :: rest
    else if key = entry.1 then (key, value) :: rest
    else entry :: insertEntry key value rest

/-- An insertion brings in nothing but the new entry. -/
theorem mem_insertEntry {α : Type} {key : String} {value : α} {entries : List (String × α)}
    {entry : String × α} (h : entry ∈ insertEntry key value entries) :
    entry = (key, value) ∨ entry ∈ entries := by
  fun_induction insertEntry key value entries with
  | case1 => simp_all
  | case2 first rest hlt => simpa using h
  | case3 first rest hlt heq =>
    rcases List.mem_cons.1 h with h | h
    · exact .inl h
    · exact .inr (List.mem_cons_of_mem _ h)
  | case4 first rest hlt heq ih =>
    rcases List.mem_cons.1 h with h | h
    · exact .inr (h ▸ List.mem_cons_self)
    · exact (ih h).imp_right (List.mem_cons_of_mem _)

/-- **Insertion keeps the order.** The new entry stands before the first larger key and takes the
place of the one with its own key. -/
theorem pairwise_insertEntry {α : Type} {key : String} {value : α} {entries : List (String × α)}
    (h : entries.Pairwise (·.1 < ·.1)) :
    (insertEntry key value entries).Pairwise (·.1 < ·.1) := by
  fun_induction insertEntry key value entries with
  | case1 => simp
  | case2 first rest hlt =>
    -- The new key is less than the first one, and so less than all.
    refine List.pairwise_cons.2 ⟨fun entry hmem => ?_, h⟩
    rcases List.mem_cons.1 hmem with rfl | hmem
    · exact hlt
    · exact String.lt_trans hlt ((List.pairwise_cons.1 h).1 entry hmem)
  | case3 first rest hlt heq =>
    obtain ⟨hfirst, hrest⟩ := List.pairwise_cons.1 h
    exact List.pairwise_cons.2 ⟨fun entry hmem => heq ▸ hfirst entry hmem, hrest⟩
  | case4 first rest hlt heq ih =>
    obtain ⟨hfirst, hrest⟩ := List.pairwise_cons.1 h
    refine List.pairwise_cons.2 ⟨fun entry hmem => ?_, ih hrest⟩
    rcases mem_insertEntry hmem with rfl | hmem
    · -- Keys are compared totally: neither smaller nor equal means larger.
      exact Std.lt_of_le_of_ne (String.not_lt.1 hlt) (Ne.symm heq)
    · exact hfirst entry hmem

/-- After an insertion the key has the new value. -/
theorem lookup_insertEntry_self {α : Type} (key : String) (value : α)
    (entries : List (String × α)) : (insertEntry key value entries).lookup key = some value := by
  fun_induction insertEntry key value entries with
  | case1 => exact List.lookup_cons_self
  | case2 => exact List.lookup_cons_self
  | case3 => exact List.lookup_cons_self
  | case4 first rest hlt heq ih =>
    rw [List.lookup_cons, beq_false_of_ne heq]
    exact ih

/-- Other keys keep their values. -/
theorem lookup_insertEntry_of_ne {α : Type} {key other : String} (h : other ≠ key) (value : α)
    (entries : List (String × α)) :
    (insertEntry key value entries).lookup other = entries.lookup other := by
  have hother : (other == key) = false := beq_false_of_ne h
  fun_induction insertEntry key value entries with
  | case1 => rw [List.lookup_cons, hother]
  | case2 => rw [List.lookup_cons, hother]
  | case3 first rest hlt heq =>
    rw [List.lookup_cons, List.lookup_cons, ← heq, hother]
  | case4 first rest hlt heq ih => rw [List.lookup_cons, List.lookup_cons, ih]

/-! ### Dictionaries -/

/-- Values under text keys, in ascending order of the keys. -/
structure Dictionary (α : Type) where
  entries : List (String × α)
  sorted : entries.Pairwise (·.1 < ·.1)

namespace Dictionary

variable {α : Type}

/-- The dictionary without entries. -/
def empty : Dictionary α := ⟨[], .nil⟩

instance : Inhabited (Dictionary α) := ⟨empty⟩

/-- Sets the value of a key. -/
def insert (d : Dictionary α) (key : String) (value : α) : Dictionary α :=
  ⟨insertEntry key value d.entries, pairwise_insertEntry d.sorted⟩

/-- The value of a key. -/
def get? (d : Dictionary α) (key : String) : Option α :=
  d.entries.lookup key

@[simp] theorem get?_insert_self (d : Dictionary α) (key : String) (value : α) :
    (d.insert key value).get? key = some value :=
  lookup_insertEntry_self key value d.entries

theorem get?_insert_of_ne (d : Dictionary α) {key other : String} (h : other ≠ key) (value : α) :
    (d.insert key value).get? other = d.get? other :=
  lookup_insertEntry_of_ne h value d.entries

/-- The values, in ascending order of their keys. -/
def values (d : Dictionary α) : List α :=
  d.entries.map Prod.snd

/-- The dictionary that holds some entries; of entries with one key the last one counts. -/
def ofList (entries : List (String × α)) : Dictionary α :=
  entries.foldl (fun d entry => d.insert entry.1 entry.2) empty

end Dictionary

end CodeAssist
