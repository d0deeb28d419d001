import CodeAssist.Proofs.Text.Points
import CodeAssist.Tokens.Strategy

/-!
# What truncation keeps

Truncation takes text away at one side only (`isKept_truncate`), for characters and for every
encoder: the cut falls between two characters, since an encoder's cut that does not is given up for
a shorter one.

Only the empty text has no tokens (`estimate_eq_zero_iff`), because tokens are not empty and no
byte is lost. So a text that measures something has something to take away.

Main statement: `truncateChecked?_eq` — truncation never subtracts below zero. At most as many
tokens are kept as there are, because more than the limit are counted before any are taken away.
-/

namespace CodeAssist.Tokens

open CodeAssist

/-! ### Texts without tokens -/

namespace Encoder

variable (e : Encoder)

/-- Only the empty text has no tokens. -/
theorem count_eq_zero_iff {text : String} : e.count text = 0 ↔ text = "" := by
  constructor
  · intro h
    -- without tokens there are no bytes, and so no characters
    have hbytes : Text.byteSize text.toList = 0 := by
      rw [← e.sum_lengths, List.length_eq_zero_iff.1 h, total_nil]
    exact String.toList_eq_nil_iff.1 (Text.byteSize_eq_zero_iff.1 hbytes)
  · rintro rfl
    exact e.count_empty

end Encoder

/-- A quotient rounded up is zero only of zero. -/
theorem ceilDiv_eq_zero_iff {n d : Nat} (hd : 0 < d) : ceilDiv n d = 0 ↔ n = 0 := by
  rw [ceilDiv, Nat.div_eq_zero_iff]
  omega

namespace Strategy

/-- **Only the empty text measures nothing.** -/
theorem estimate_eq_zero_iff (strategy : Strategy) {text : String} :
    strategy.estimate text = 0 ↔ text = "" := by
  cases strategy with
  | characters perToken positive =>
    rw [estimate, ceilDiv_eq_zero_iff positive, List.length_eq_zero_iff, String.toList_eq_nil_iff]
  | encoded e => exact e.count_eq_zero_iff

/-- The empty text measures nothing. -/
@[simp] theorem estimate_empty (strategy : Strategy) : strategy.estimate "" = 0 :=
  strategy.estimate_eq_zero_iff.2 rfl

end Strategy

/-! ### The side that is kept -/

/-- What is left of a text when some of it is taken away at one side. -/
def IsKept : Side → (kept text : List Char) → Prop
  | .left, kept, text => kept <:+ text
  | .right, kept, text => kept <+: text

/-- All of a text is kept when nothing is taken away. -/
theorem IsKept.refl (side : Side) (text : List Char) : IsKept side text text := by
  cases side with
  | left => exact List.suffix_rfl
  | right => exact List.prefix_rfl

/-- Everything may be taken away. -/
theorem IsKept.nil (side : Side) (text : List Char) : IsKept side [] text := by
  cases side with
  | left => exact List.nil_suffix
  | right => exact List.nil_prefix

/-- Some characters at one side are kept. -/
theorem isKept_keepChars (side : Side) (n : Nat) (cs : List Char) :
    IsKept side (keepChars side n cs) cs := by
  cases side with
  | left => exact List.drop_suffix _ cs
  | right => exact List.take_prefix n cs

namespace Encoder

variable (e : Encoder)

/-- An encoder's cut keeps one of the two parts. -/
theorem isKept_of_keepTokens? {side : Side} {text kept : String} {keep : Nat}
    (h : e.keepTokens? side text keep = some kept) : IsKept side kept.toList text.toList := by
  cases side with
  | left =>
    obtain ⟨⟨a, b⟩, hcut, rfl⟩ := Option.map_eq_some_iff.1 h
    obtain ⟨htext, -⟩ := Text.eq_append_of_splitAt? hcut
    rw [htext, String.toList_ofList]
    exact List.suffix_append a b
  | right =>
    obtain ⟨⟨a, b⟩, hcut, rfl⟩ := Option.map_eq_some_iff.1 h
    obtain ⟨htext, -⟩ := Text.eq_append_of_splitAt? hcut
    rw [htext, String.toList_ofList]
    exact List.prefix_append a b

/-- Shrinking keeps text at its side. -/
theorem isKept_shrink (side : Side) (text : String) (limit keep : Nat) :
    IsKept side (e.shrink side text limit keep).text.toList text.toList := by
  fun_induction e.shrink side text limit keep with
  | case1 => exact IsKept.nil side _
  | case2 keep kept hkept hfits => exact e.isKept_of_keepTokens? hkept
  | case3 keep kept hkept hfits ih => exact ih
  | case4 keep hcut ih => exact ih

end Encoder

namespace Strategy

/-- **Truncation takes away at one side only.** -/
theorem isKept_truncate (strategy : Strategy) (text : String) (limit : Nat) (side : Side) :
    IsKept side (strategy.truncate text limit side).text.toList text.toList := by
  cases strategy with
  | characters perToken positive =>
    simp only [truncate]
    split
    · exact IsKept.refl side _
    · rw [String.toList_ofList]
      exact isKept_keepChars side _ _
  | encoded e =>
    simp only [truncate]
    split
    · exact IsKept.refl side _
    · exact e.isKept_shrink side text limit limit

/-- A truncated text measures at most what was asked for. -/
theorem estimate_truncate_le (strategy : Strategy) (text : String) (limit : Nat) (side : Side) :
    strategy.estimate (strategy.truncate text limit side).text ≤ limit := by
  rw [estimate_truncate]
  exact tokens_truncate_le ..

end Strategy

/-! ### Truncation with checked subtraction

The same algorithms, in which a subtraction has no value where it would go below zero. -/

/-- Keeps `n` characters at one side, by the number of those that are taken away. -/
def keepCharsChecked? (side : Side) (n : Nat) (cs : List Char) : Option (List Char) :=
  match side with
  | .left => (Nat.psub cs.length n).map cs.drop
  | .right => some (cs.take n)

namespace Encoder

variable (e : Encoder)

/-- Keeps `keep` tokens at one side, by the number of those that are taken away. -/
def keepTokensChecked? (side : Side) (text : String) (keep : Nat) : Option (Option String) :=
  let lengths := e.lengths text
  match side with
  | .left =>
    (Nat.psub lengths.length keep).map fun skipped =>
      (Text.splitAt? (total (lengths.take skipped)) text.toList).map fun parts =>
        String.ofList parts.2
  | .right =>
    some ((Text.splitAt? (total (lengths.take keep)) text.toList).map fun parts =>
      String.ofList parts.1)

/-- Lowers the number of kept tokens until the kept text fits. -/
def shrinkChecked? (side : Side) (text : String) (limit : Nat) : (keep : Nat) → Option Measured
  | 0 => some ⟨"", 0⟩
  | keep + 1 => do
    match ← e.keepTokensChecked? side text (keep + 1) with
    | some kept =>
      if e.count kept ≤ limit then return ⟨kept, e.count kept⟩
      else shrinkChecked? side text limit keep
    | none => shrinkChecked? side text limit keep

/-- As many tokens as there are can be kept. -/
theorem keepTokensChecked?_eq (side : Side) {text : String} {keep : Nat}
    (h : keep ≤ e.count text) :
    e.keepTokensChecked? side text keep = some (e.keepTokens? side text keep) := by
  cases side with
  | left =>
    have hsub := Nat.psub_eq_sub (show keep ≤ (e.lengths text).length from h)
    simp only [keepTokensChecked?, keepTokens?, hsub, Option.map_some]
  | right => rfl

/-- Shrinking from at most as many tokens as there are never subtracts below zero. -/
theorem shrinkChecked?_eq (side : Side) {text : String} (limit : Nat) {keep : Nat}
    (h : keep ≤ e.count text) :
    e.shrinkChecked? side text limit keep = some (e.shrink side text limit keep) := by
  -- fewer tokens are tried until the kept part fits, which may be at none
  induction keep with
  | zero => rfl
  | succ keep ih =>
    have ih := ih (by omega)
    simp only [shrinkChecked?, shrink, e.keepTokensChecked?_eq side h, Option.bind_eq_bind,
      Option.bind_some]
    cases e.keepTokens? side text (keep + 1) with
    | none => exact ih
    | some kept => by_cases hfits : e.count kept ≤ limit <;> simp [hfits, ih]

end Encoder

namespace Strategy

/-- Cuts a text down to at most `limit` tokens. -/
def truncateChecked? (strategy : Strategy) (text : String) (limit : Nat) (side : Side) :
    Option Measured :=
  match strategy with
  | characters perToken _ =>
    let length := text.toList.length
    let keep := limit * perToken
    if length ≤ keep then some ⟨text, ceilDiv length perToken⟩
    else (keepCharsChecked? side keep text.toList).map fun kept =>
      ⟨String.ofList kept, ceilDiv keep perToken⟩
  | encoded e =>
    if e.count text ≤ limit then some ⟨text, e.count text⟩
    else e.shrinkChecked? side text limit limit

/-- **Truncation never subtracts below zero**: text is taken away only where it exceeds what is
kept. -/
theorem truncateChecked?_eq (strategy : Strategy) (text : String) (limit : Nat) (side : Side) :
    strategy.truncateChecked? text limit side = some (strategy.truncate text limit side) := by
  cases strategy with
  | characters perToken positive =>
    simp only [truncateChecked?, truncate]
    split
    · rfl
    · rename_i hover
      have hsub := Nat.psub_eq_sub (Nat.le_of_not_le hover)
      cases side <;> simp [keepCharsChecked?, keepChars, hsub]
  | encoded e =>
    simp only [truncateChecked?, truncate]
    split
    · rfl
    · exact e.shrinkChecked?_eq side limit (by omega)

end Strategy

end CodeAssist.Tokens
