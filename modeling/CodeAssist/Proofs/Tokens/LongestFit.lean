import CodeAssist.Proofs.Tokens.Truncation

/-!
# The truncation law

Truncation answers one of the two parts of a cut between characters, measured and within the limit,
and a text that is within the limit already is answered whole (`IsWithin`). So a second truncation
changes nothing: the first one has left a text that is within the limit.

Counting characters, truncation moreover keeps all that fits. A text is within a limit of `n` tokens
exactly where it has at most `n` times the characters of a token (`ceilDiv_le_iff`), and so many are
kept; every part at the same side that is within the limit lies within the part that is kept
(`isKept_truncate_of_estimate_le`). An encoder promises no such thing, since a longer part may be
split into fewer tokens.

Characters are kept by offsets in bytes and by numbers that fit into a machine word. Neither shows:
an offset behind whole characters is a cut, and a product that stops at the greatest word is still
beyond every text (`truncateInWords?_eq`).

Main statement: `truncation_law`.
-/

namespace CodeAssist.Tokens

open CodeAssist

/-! ### The parts of a cut -/

/-- The part of a cut that stays when the other one is taken away at a side. -/
def Side.part : Side → List Char × List Char → List Char
  | .left, parts => parts.2
  | .right, parts => parts.1

/-- What is kept at a side is a part of a cut between two characters. -/
theorem IsKept.exists_cut {side : Side} {kept text : List Char} (h : IsKept side kept text) :
    ∃ offset parts, Text.splitAt? offset text = some parts ∧ kept = side.part parts := by
  cases side with
  | left =>
    obtain ⟨taken, rfl⟩ := h
    exact ⟨_, (taken, kept), Text.splitAt?_byteSize_append taken kept, rfl⟩
  | right =>
    obtain ⟨taken, rfl⟩ := h
    exact ⟨_, (kept, taken), Text.splitAt?_byteSize_append kept taken, rfl⟩

/-! ### Numbers of characters -/

/-- **A rounded quotient is bounded by a product.** -/
theorem ceilDiv_le_iff {n k d : Nat} (hd : 0 < d) : ceilDiv n d ≤ k ↔ n ≤ k * d := by
  constructor
  · intro h
    rw [ceilDiv, ← Nat.lt_succ_iff, Nat.div_lt_iff_lt_mul hd, Nat.succ_mul] at h
    omega
  · exact Strategy.ceilDiv_le hd

/-- A part of at most `n` characters lies within the `n` characters kept at its side. -/
theorem IsKept.keepChars {side : Side} {n : Nat} {kept cs : List Char} (h : IsKept side kept cs)
    (hlength : kept.length ≤ n) : IsKept side kept (keepChars side n cs) := by
  -- of two ends of one text the shorter one is an end of the longer one
  cases side with
  | left =>
    have hle := List.IsSuffix.length_le h
    refine List.suffix_of_suffix_length_le h (List.drop_suffix _ cs) ?_
    simp only [Tokens.keepChars, List.length_drop]
    omega
  | right =>
    have hle := List.IsPrefix.length_le h
    refine List.prefix_of_prefix_length_le h (List.take_prefix n cs) ?_
    simp only [Tokens.keepChars, List.length_take]
    omega

namespace Strategy

/-! ### Texts within the limit -/

/-- A text within the limit is answered whole. -/
theorem truncate_of_estimate_le {strategy : Strategy} {text : String} {limit : Nat} (side : Side)
    (h : strategy.estimate text ≤ limit) :
    strategy.truncate text limit side = ⟨text, strategy.estimate text⟩ := by
  cases strategy with
  | characters perToken positive => exact if_pos ((ceilDiv_le_iff positive).1 h)
  | encoded e => exact if_pos h

/-- **Truncating twice** is truncating once, since the first truncation leaves a text within the
limit. -/
theorem truncate_truncate (strategy : Strategy) (text : String) (limit : Nat) (side : Side) :
    strategy.truncate (strategy.truncate text limit side).text limit side =
      strategy.truncate text limit side := by
  rw [truncate_of_estimate_le side (strategy.estimate_truncate_le text limit side),
    estimate_truncate]

/-- **All that fits is kept** where characters are counted. -/
theorem isKept_truncate_of_estimate_le {perToken : Nat} {text other : String} {limit : Nat}
    {side : Side} (h : IsKept side other.toList text.toList)
    (hfits : (ofCharacters perToken).estimate other ≤ limit) :
    IsKept side other.toList ((ofCharacters perToken).truncate text limit side).text.toList := by
  have hlength : other.toList.length ≤ limit * max perToken 1 :=
    (ceilDiv_le_iff (by omega)).1 hfits
  simp only [ofCharacters, truncate]
  split
  · exact h
  · rw [String.toList_ofList]
    exact h.keepChars hlength

/-! ### Byte offsets and machine words -/

/-- Keeps characters as `truncate` does, where the cut is made at an offset in bytes and the number
of characters to keep stops at the greatest word of 64 bits. -/
def truncateInWords? (perToken : Nat) (text : String) (limit : Nat) (side : Side) :
    Option Measured :=
  let length := text.toList.length
  let keep := min (limit * perToken) (UInt64.size - 1)
  if limit = 0 then some ⟨"", 0⟩
  else if length ≤ keep then some ⟨text, ceilDiv length perToken⟩
  else
    let first := match side with
      | .left => length - keep
      | .right => keep
    (Text.splitAt? (Text.byteSize (text.toList.take first)) text.toList).map fun parts =>
      ⟨String.ofList (side.part parts), ceilDiv keep perToken⟩

/-- **Offsets and words do not show** in texts whose length is a word. -/
theorem truncateInWords?_eq {perToken : Nat} (positive : 0 < perToken) {text : String}
    (hword : text.toList.length < UInt64.size) (limit : Nat) (side : Side) :
    truncateInWords? perToken text limit side =
      some ((characters perToken positive).truncate text limit side) := by
  -- the place of a character in bytes is where the text is cut
  have hcut : ∀ n, Text.splitAt? (Text.byteSize (text.toList.take n)) text.toList =
      some (text.toList.take n, text.toList.drop n) := fun n => by
    simpa only [List.take_append_drop] using
      Text.splitAt?_byteSize_append (text.toList.take n) (text.toList.drop n)
  simp only [truncateInWords?, truncate, hcut]
  split
  case isTrue hzero =>
    -- without tokens nothing is kept, and the empty text is the same as none of the text
    subst hzero
    have hempty : ((characters perToken positive).truncate text 0 side).text = "" :=
      (estimate_eq_zero_iff _).1
        (Nat.le_zero.1 ((characters perToken positive).estimate_truncate_le text 0 side))
    have htokens : ((characters perToken positive).truncate text 0 side).tokens = 0 :=
      Nat.le_zero.1 ((characters perToken positive).tokens_truncate_le text 0 side)
    exact congrArg some (congrArg₂ Measured.mk hempty htokens).symm
  case isFalse =>
    by_cases hall : text.toList.length ≤ limit * perToken
    · rw [if_pos hall, if_pos (by omega)]
    · -- a text that is longer than the product keeps the product below the greatest word
      have hkeep : min (limit * perToken) (UInt64.size - 1) = limit * perToken := by omega
      rw [hkeep, if_neg hall, if_neg hall]
      cases side <;> rfl

/-! ### The law -/

/-- What truncation of a text to a limit at a side may answer. -/
structure IsWithin (strategy : Strategy) (text : String) (limit : Nat) (side : Side)
    (kept : Measured) : Prop where
  /-- The text kept is a part of a cut between two characters. -/
  exists_cut : ∃ offset parts, Text.splitAt? offset text.toList = some parts ∧
    kept.text.toList = side.part parts
  tokens_eq : kept.tokens = strategy.estimate kept.text
  tokens_le : kept.tokens ≤ limit
  /-- A text within the limit is left as it is. -/
  of_estimate_le : strategy.estimate text ≤ limit → kept = ⟨text, strategy.estimate text⟩

/-- **The truncation law.** Truncation keeps a measured part of the text within the limit, all of a
text within the limit, and the same when it is done twice. Counting characters, it keeps every part
at its side that is within the limit, and cutting at offsets in machine words does the same. -/
theorem truncation_law (strategy : Strategy) (text : String) (limit : Nat) (side : Side) :
    strategy.IsWithin text limit side (strategy.truncate text limit side) ∧
      strategy.truncate (strategy.truncate text limit side).text limit side =
        strategy.truncate text limit side ∧
      ∀ perToken,
        (∀ other : String, IsKept side other.toList text.toList →
          (ofCharacters perToken).estimate other ≤ limit →
          IsKept side other.toList
            ((ofCharacters perToken).truncate text limit side).text.toList) ∧
        (text.toList.length < UInt64.size →
          truncateInWords? (max perToken 1) text limit side =
            some ((ofCharacters perToken).truncate text limit side)) := by
  refine ⟨⟨?_, ?_, ?_, ?_⟩, strategy.truncate_truncate text limit side, fun perToken => ⟨?_, ?_⟩⟩
  · exact (strategy.isKept_truncate text limit side).exists_cut
  · exact (strategy.estimate_truncate text limit side).symm
  · exact strategy.tokens_truncate_le text limit side
  · exact truncate_of_estimate_le side
  · exact fun _ => isKept_truncate_of_estimate_le
  · exact fun hword => truncateInWords?_eq _ hword limit side

end Strategy

/-- An encoder that joins the first three bytes of a text of more than five bytes. -/
def Encoder.joining : Encoder where
  lengths text :=
    let size := Text.byteSize text.toList
    if size ≤ 5 then List.replicate size 1 else 3 :: List.replicate (size - 3) 1
  lengths_pos text n h := by
    dsimp only at h
    split at h
    · rw [(List.mem_replicate.1 h).2]
      exact Nat.one_pos
    · rcases List.mem_cons.1 h with rfl | hone
      · decide
      · rw [(List.mem_replicate.1 hone).2]
        exact Nat.one_pos
  sum_lengths text := by
    dsimp only
    split
    · exact total_replicate_one _
    · rw [total_cons, total_replicate_one]
      omega

namespace Strategy

/-- Of eight tokens four end inside a character, three make five when they are split anew, and two
make four; they are kept. Counting characters, zero to a token are taken for one. -/
theorem truncation_law_joining :
    (encoded .joining).truncate "abcde日xy" 4 .right = ⟨"abcd", 4⟩ ∧
      (encoded .joining).IsWithin "abcde日xy" 4 .right ⟨"abcd", 4⟩ ∧
      (encoded .joining).truncate "abcd" 4 .right = ⟨"abcd", 4⟩ ∧
      IsKept .left "o".toList ((ofCharacters 0).truncate "héllo" 2 .left).text.toList ∧
      truncateInWords? 1 "héllo" 2 .left = some ((ofCharacters 0).truncate "héllo" 2 .left) := by
  have hkept : (encoded .joining).truncate "abcde日xy" 4 .right = ⟨"abcd", 4⟩ := by
    decide +kernel
  obtain ⟨hwithin, hagain, -⟩ := (encoded .joining).truncation_law "abcde日xy" 4 .right
  -- cutting what was kept leaves it as it is, with the tokens counted anew
  rw [hkept] at hwithin hagain
  obtain ⟨hlongest, hwords⟩ := ((ofCharacters 0).truncation_law "héllo" 2 .left).2.2 0
  exact ⟨hkept, hwithin, hagain,
    hlongest "o" ⟨"héll".toList, by decide +kernel⟩ (by decide +kernel), hwords (by decide +kernel)⟩

end Strategy

end CodeAssist.Tokens
