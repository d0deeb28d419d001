/-!
# Byte offsets in text

Offsets and columns count the bytes of the UTF-8 encoding, but text is only ever cut between two
characters. `splitAt? n` is the cut after the first `n` bytes, where there is one, and `slice?`
the text between two such cuts.

Main statements: `byteSize_toList` ties the measure on character lists to the one on strings, and
`splitAt?_eq_some_iff` says that a cut after `n` bytes is exactly a way to write
the text as two parts of which the first measures `n` bytes. The latter holds because every
character measures at least one byte, so no two cuts share an offset.
-/

namespace CodeAssist.Text

/-! ### The measure -/

/-- Number of bytes of the UTF-8 encoding. -/
def byteSize : List Char → Nat
  | [] => 0
  | c :: cs => c.utf8Size + byteSize cs

@[simp] theorem byteSize_nil : byteSize [] = 0 := rfl

@[simp] theorem byteSize_cons (c : Char) (cs : List Char) :
    byteSize (c :: cs) = c.utf8Size + byteSize cs := rfl

@[simp] theorem byteSize_append (a b : List Char) :
    byteSize (a ++ b) = byteSize a + byteSize b := by
  induction a with
  | nil => simp
  | cons c a ih => simp [ih, Nat.add_assoc]

/-- The bytes of a list of characters are those of the string that it spells. -/
theorem byteSize_ofList (cs : List Char) : (String.ofList cs).utf8ByteSize = byteSize cs := by
  induction cs with
  | nil => simp
  | cons c cs ih =>
    -- One character in front is one string in front.
    have hsplit : String.ofList (c :: cs) = String.ofList [c] ++ String.ofList cs := by
      rw [← String.ofList_append]; rfl
    rw [hsplit, String.utf8ByteSize_append, ih, byteSize_cons, ← String.singleton_eq_ofList,
      String.utf8ByteSize_singleton]

/-- The bytes of a string are those of its characters. -/
theorem byteSize_toList (s : String) : byteSize s.toList = s.utf8ByteSize := by
  rw [← byteSize_ofList, String.ofList_toList]

/-! ### Cuts -/

/-- The parts before and after the first `n` bytes; none where `n` falls inside a character or
behind the end. -/
def splitAt? : Nat → List Char → Option (List Char × List Char)
  | 0, cs => some ([], cs)
  | _ + 1, [] => none
  | n + 1, c :: cs =>
    if c.utf8Size ≤ n + 1 then
      (splitAt? (n + 1 - c.utf8Size) cs).map fun parts => (c :: parts.1, parts.2)
    else none

/-- A cut behind `a` gives back `a` and what follows it. -/
theorem splitAt?_byteSize_append (a b : List Char) :
    splitAt? (byteSize a) (a ++ b) = some (a, b) := by
  induction a with
  | nil => simp [splitAt?]
  | cons c a ih =>
    have hc := c.utf8Size_pos
    -- The offset is positive, so the cut passes the first character.
    obtain ⟨n, hn⟩ : ∃ n, c.utf8Size + byteSize a = n + 1 :=
      ⟨c.utf8Size + byteSize a - 1, by omega⟩
    have hsub : n + 1 - c.utf8Size = byteSize a := by omega
    simp only [byteSize_cons, hn, List.cons_append, splitAt?]
    rw [if_pos (by omega), hsub, ih]
    rfl

/-- The parts of a cut join to the text, and the first one measures what was asked for. -/
theorem eq_append_of_splitAt? {n : Nat} {cs a b : List Char} (h : splitAt? n cs = some (a, b)) :
    cs = a ++ b ∧ byteSize a = n := by
  fun_induction splitAt? n cs generalizing a b with
  | case1 cs => simp_all
  | case2 n => simp at h
  | case3 n c cs hle ih =>
    obtain ⟨⟨a', b'⟩, hs, hab⟩ := Option.map_eq_some_iff.1 h
    obtain ⟨rfl, rfl⟩ := Prod.mk.inj hab
    obtain ⟨hcs, hsize⟩ := ih hs
    refine ⟨by simp [hcs], ?_⟩
    rw [byteSize_cons, hsize]
    omega
  | case4 n c cs hle => simp at h

/-- **Cuts are factorisations.** The text can be cut after `n` bytes exactly where some first part
measures `n` bytes. -/
theorem splitAt?_eq_some_iff {n : Nat} {cs a b : List Char} :
    splitAt? n cs = some (a, b) ↔ cs = a ++ b ∧ byteSize a = n :=
  ⟨eq_append_of_splitAt?, fun ⟨h, hn⟩ => by rw [h, ← hn, splitAt?_byteSize_append]⟩

/-! ### Slices -/

/-- The text between the byte offsets `start` and `stop`; none where one of them is no cut or they
come in the wrong order. -/
def slice? (start stop : Nat) (cs : List Char) : Option (List Char) :=
  if start ≤ stop then do
    let (_, rest) ← splitAt? start cs
    -- What is left is measured from `start` on.
    let (kept, _) ← splitAt? (stop - start) rest
    return kept
  else none

end CodeAssist.Text
