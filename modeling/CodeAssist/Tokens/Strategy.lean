import CodeAssist.Text.Bytes

/-!
# Measuring and truncating text in tokens

A strategy measures text in the tokens of a language model and cuts text down to a number of
tokens. One strategy counts characters and takes a fixed number of them for a token; the other one
asks an encoder, which splits the bytes of a text into tokens that need not end between characters.

Main statements: a truncated text measures what its record says (`estimate_truncate`) and never
more than asked for (`tokens_truncate_le`). The first step of an encoder's truncation can overshoot,
because the kept text is split anew; so the number of kept tokens is lowered until the text fits,
and the empty text, which has no tokens, always does.
-/

namespace CodeAssist.Tokens

open CodeAssist

/-! ### Totals -/

/-- The sum of some numbers. -/
def total (ns : List Nat) : Nat :=
  ns.foldr (· + ·) 0

@[simp] theorem total_nil : total [] = 0 := rfl

@[simp] theorem total_cons (n : Nat) (ns : List Nat) : total (n :: ns) = n + total ns := rfl

/-- Numbers side by side sum to both sums together. -/
theorem total_append (ms ns : List Nat) : total (ms ++ ns) = total ms + total ns := by
  induction ms with
  | nil => simp
  | cons m ms ih => simp [ih, Nat.add_assoc]

/-- So many ones sum to their number. -/
theorem total_replicate_one (n : Nat) : total (List.replicate n 1) = n := by
  induction n with
  | zero => rfl
  | succ n ih => rw [List.replicate_succ, total_cons, ih, Nat.add_comm]

/-! ### Encoders -/

/-- Splits the bytes of every text into tokens. -/
structure Encoder where
  /-- The numbers of bytes of the tokens of a text. -/
  lengths : String → List Nat
  /-- No token is empty. -/
  lengths_pos : ∀ text, ∀ n ∈ lengths text, 0 < n
  /-- No byte is lost. -/
  sum_lengths : ∀ text, total (lengths text) = Text.byteSize text.toList

/-- The encoder that takes every byte for a token. -/
def Encoder.perByte : Encoder where
  lengths text := List.replicate (Text.byteSize text.toList) 1
  lengths_pos text n h := by rw [(List.mem_replicate.1 h).2]; exact Nat.one_pos
  sum_lengths text := total_replicate_one _

/-! ### Strategies -/

/-- The end of a text at which truncation takes away. -/
inductive Side where
  /-- Takes away at the start, so that what stands before a cursor is kept. -/
  | left
  /-- Takes away at the end. -/
  | right
deriving DecidableEq, Repr

/-- A text and the number of tokens that it measures. -/
structure Measured where
  text : String
  tokens : Nat
deriving DecidableEq, Repr, Inhabited

/-- How text is measured. -/
inductive Strategy where
  /-- So many characters, or fewer at the end of the text, are one token. -/
  | characters (perToken : Nat) (positive : 0 < perToken)
  /-- The tokens of an encoder. -/
  | encoded (encoder : Encoder)

/-- The quotient of two numbers, rounded up. -/
def ceilDiv (n d : Nat) : Nat :=
  (n + d - 1) / d

/-- The part of a text that is left when all but `n` characters are taken away at one side. -/
def keepChars (side : Side) (n : Nat) (cs : List Char) : List Char :=
  match side with
  | .left => cs.drop (cs.length - n)
  | .right => cs.take n

namespace Encoder

variable (e : Encoder)

/-! ### Truncation by an encoder -/

/-- Number of tokens of a text. -/
def count (text : String) : Nat :=
  (e.lengths text).length

/-- The text of all but `keep` tokens taken away at one side, where it is cut between
characters. -/
def keepTokens? (side : Side) (text : String) (keep : Nat) : Option String :=
  let lengths := e.lengths text
  match side with
  | .left =>
    (Text.splitAt? (total (lengths.take (lengths.length - keep))) text.toList).map
      fun parts => String.ofList parts.2
  | .right =>
    (Text.splitAt? (total (lengths.take keep)) text.toList).map fun parts => String.ofList parts.1

/-- Keeps as many tokens as possible, at most `keep`, such that the kept text has at most `limit`
tokens when it is split anew. -/
def shrink (side : Side) (text : String) (limit : Nat) : (keep : Nat) → Measured
  | 0 => ⟨"", 0⟩
  | keep + 1 =>
    match e.keepTokens? side text (keep + 1) with
    | some kept =>
      if e.count kept ≤ limit then ⟨kept, e.count kept⟩ else shrink side text limit keep
    -- The cut falls inside a character.
    | none => shrink side text limit keep

/-- The empty text has no tokens, since tokens are not empty. -/
theorem count_empty : e.count "" = 0 := by
  have hsum : total (e.lengths "") = 0 := by rw [e.sum_lengths]; rfl
  cases h : e.lengths "" with
  | nil => simp [count, h]
  | cons n ns =>
    -- A first token would take a byte, but there is none.
    have hpos := e.lengths_pos "" n (by simp [h])
    simp only [h, total_cons] at hsum
    omega

/-- What shrinking reports is what the kept text measures. -/
theorem count_shrink (side : Side) (text : String) (limit keep : Nat) :
    e.count (e.shrink side text limit keep).text = (e.shrink side text limit keep).tokens := by
  fun_induction e.shrink side text limit keep <;> simp_all [count_empty]

/-- Shrinking keeps to its limit. -/
theorem tokens_shrink_le (side : Side) (text : String) (limit keep : Nat) :
    (e.shrink side text limit keep).tokens ≤ limit := by
  fun_induction e.shrink side text limit keep <;> simp_all

end Encoder

namespace Strategy

/-! ### Measuring and truncating -/

/-- The strategy that counts characters; at least one character is a token. -/
def ofCharacters (perToken : Nat) : Strategy :=
  .characters (max perToken 1) (by omega)

/-- Number of tokens of a text. -/
def estimate : Strategy → String → Nat
  | characters perToken _, text => ceilDiv text.toList.length perToken
  | encoded e, text => e.count text

/-- Cuts a text down to at most `limit` tokens. -/
def truncate (strategy : Strategy) (text : String) (limit : Nat) (side : Side) : Measured :=
  match strategy with
  | characters perToken _ =>
    let length := text.toList.length
    let keep := limit * perToken
    if length ≤ keep then ⟨text, ceilDiv length perToken⟩
    else ⟨String.ofList (keepChars side keep text.toList), ceilDiv keep perToken⟩
  | encoded e =>
    if e.count text ≤ limit then ⟨text, e.count text⟩ else e.shrink side text limit limit

/-! ### Laws -/

/-- So many characters for each token round to that many tokens. -/
theorem ceilDiv_mul_right (n : Nat) {d : Nat} (h : 0 < d) : ceilDiv (n * d) d = n := by
  rw [ceilDiv, Nat.add_sub_assoc h, Nat.mul_comm, Nat.mul_add_div h, Nat.div_eq_of_lt (by omega),
    Nat.add_zero]

/-- No more characters than so many for each token round to at most that many tokens. -/
theorem ceilDiv_le {n k d : Nat} (hd : 0 < d) (h : n ≤ k * d) : ceilDiv n d ≤ k := by
  rw [← ceilDiv_mul_right k hd]
  exact Nat.div_le_div_right (by omega)

/-- Both sides keep the same number of characters. -/
theorem length_keepChars (side : Side) {n : Nat} {cs : List Char} (h : n ≤ cs.length) :
    (keepChars side n cs).length = n := by
  cases side <;> simp [keepChars] <;> omega

/-- **A truncated text is measured.** What truncation reports is what the kept text measures. -/
theorem estimate_truncate (strategy : Strategy) (text : String) (limit : Nat) (side : Side) :
    strategy.estimate (strategy.truncate text limit side).text =
      (strategy.truncate text limit side).tokens := by
  cases strategy with
  | characters perToken positive =>
    simp only [truncate]
    split
    · rfl
    · -- The kept part has exactly the characters that the limit allows.
      simp only [estimate, String.toList_ofList]
      rw [length_keepChars side (by omega)]
  | encoded e =>
    simp only [truncate]
    split
    · rfl
    · exact e.count_shrink ..

/-- **Truncation keeps to its limit.** -/
theorem tokens_truncate_le (strategy : Strategy) (text : String) (limit : Nat) (side : Side) :
    (strategy.truncate text limit side).tokens ≤ limit := by
  cases strategy with
  | characters perToken positive =>
    simp only [truncate]
    split
    · exact ceilDiv_le positive ‹_›
    · exact Nat.le_of_eq (ceilDiv_mul_right limit positive)
  | encoded e =>
    simp only [truncate]
    split
    · assumption
    · exact e.tokens_shrink_le ..

end Strategy

end CodeAssist.Tokens
