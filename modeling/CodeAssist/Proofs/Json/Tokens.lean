import CodeAssist.Json.Reader
import CodeAssist.Proofs.Json.Numerals

/-!
# The tokens of a text

Every token takes at least one character, so a text has no more tokens than characters, and the
bound with which tokens are split off is never reached: a text has the tokens that it has within any
bound that is enough for them (`HasTokens.tokens?_eq`).

`HasTokens` is then built up from the end of a text to its front, one token or one row of blanks at
a time. A text in quotes is read back whatever its characters are (`HasTokens.quote`): each of them
is one code unit or an escape for one, and no character is half of a surrogate pair.
-/

namespace CodeAssist.Json

/-! ### Characters of a text -/

/-- A control character without a short form is read back from its two hexadecimal digits. -/
theorem hexUnit?_control : ∀ n < 0x20,
    hexUnit? '0' '0' (Nat.digitChar (n / 16)) (Nat.digitChar (n % 16)) = some n := by
  decide

/-- A character is read back as one code unit, escaped or not. -/
theorem units?_escape (c : Char) (cs : List Char) :
    units? (escape c ++ cs) = (units? cs).map fun (units, rest) => (c.toNat :: units, rest) := by
  -- Only the last branch is about a character in general: a control character or a plain one.
  unfold escape
  split
  case h_8 =>
    split
    case isTrue hcontrol =>
      cases hcs : units? cs <;> simp [units?, hexUnit?_control _ hcontrol, hcs]
    case isFalse hcontrol =>
      have hplain : ¬(c.toNat < 0x20 ∨ c = '\\') := by simp_all
      rw [List.singleton_append, units?]
      · cases hcs : units? cs <;> simp [hplain]
      -- The character opens neither the end nor an escape.
      all_goals simp_all
  all_goals cases hcs : units? cs <;> simp [units?, escaped?, hcs]

theorem units?_flatMap_escape (s rest : List Char) :
    units? (s.flatMap escape ++ '"' :: rest) = some (s.map Char.toNat, rest) := by
  induction s with
  | nil => simp [units?]
  | cons c s ih =>
    rw [List.flatMap_cons, List.append_assoc, units?_escape, ih]
    rfl

/-- No character is half of a surrogate pair. -/
theorem isHalf_toNat (c : Char) : isHighHalf c.toNat = false ∧ isLowHalf c.toNat = false := by
  have hvalid := c.valid
  have htoNat : c.val.toNat = c.toNat := rfl
  simp only [UInt32.isValidChar, Nat.isValidChar] at hvalid
  simp only [isHighHalf, isLowHalf, Bool.and_eq_false_iff, decide_eq_false_iff_not]
  omega

theorem pairUnits?_map_toNat (cs : List Char) : pairUnits? (cs.map Char.toNat) = some cs := by
  induction cs with
  | nil => rfl
  | cons c cs ih =>
    obtain ⟨hhigh, hlow⟩ := isHalf_toNat c
    cases cs with
    | nil => simp [pairUnits?, hhigh, hlow, Char.ofNat_toNat]
    | cons d ds =>
      rw [List.map_cons] at ih
      simp [pairUnits?, hhigh, hlow, ih, Char.ofNat_toNat]

/-- **A text is read back** from its quoted form. -/
theorem token?_quote (s : String) (rest : List Char) :
    token? (quote s ++ rest) = some (.text (some s), rest) := by
  have hunits := units?_flatMap_escape s.toList rest
  simp [quote, token?, hunits, pairUnits?_map_toNat, String.ofList_toList]

theorem isSpace_of_isDigit {c : Char} (h : c.isDigit = true) : isSpace c = false := by
  by_contra hspace
  simp only [isSpace, Bool.not_eq_false, Bool.or_eq_true, decide_eq_true_eq] at hspace
  rcases hspace with ((rfl | rfl) | rfl) | rfl <;> exact absurd h (by decide)

/-- The text of a numeral starts with a sign or a digit. -/
theorem exists_text_eq_cons {numeral : Numeral} (h : numeral.Wellformed) :
    ∃ c cs, numeral.text = c :: cs ∧ (c = '-' ∨ c.isDigit = true) := by
  obtain ⟨negative, whole, fraction, exponent⟩ := numeral
  obtain ⟨c, cs, rfl⟩ := List.exists_cons_of_ne_nil h.whole.ne_nil
  cases negative with
  | true => exact ⟨'-', _, rfl, .inl rfl⟩
  | false => exact ⟨c, _, rfl, .inr (h.whole.isDigit c List.mem_cons_self)⟩

/-! ### Tokens from the end of a text to its front -/

/-- The tokens that a text has: they are split off within a bound that is just enough for them, and
are no more than characters, because none is empty. -/
structure HasTokens (cs : List Char) (tokens : List Token) : Prop where
  within : tokensWithin? (tokens.length + 1) cs = some tokens
  short : tokens.length ≤ cs.length

theorem tokensWithin?_of_le {n m : Nat} (hle : n ≤ m) {cs : List Char} {tokens : List Token}
    (h : tokensWithin? n cs = some tokens) : tokensWithin? m cs = some tokens := by
  -- Each token takes one step of the fuel, so more fuel reads the same tokens.
  induction n generalizing m cs tokens with
  | zero => cases h
  | succ n ih =>
    obtain ⟨m, rfl⟩ : ∃ k, m = k + 1 := ⟨m - 1, by omega⟩
    unfold tokensWithin? at h ⊢
    split at h
    · exact h
    · obtain ⟨⟨token, rest⟩, htoken, others, hothers, heq⟩ :
          ∃ split, token? (cs.dropWhile isSpace) = some split ∧
            ∃ others, tokensWithin? n split.2 = some others ∧ split.1 :: others = tokens := by
        simpa [Option.bind_eq_some_iff] using h
      have hmore := ih (Nat.le_of_succ_le_succ hle) hothers
      simp_all

/-- The bound that is used is enough. -/
theorem HasTokens.tokens?_eq {cs : List Char} {tokens : List Token} (h : HasTokens cs tokens) :
    tokens? cs = some tokens :=
  tokensWithin?_of_le (Nat.succ_le_succ h.short) h.within

theorem isSpace_of_mem_singleton {blank : Char} (h : isSpace blank = true) :
    ∀ c ∈ [blank], isSpace c = true :=
  fun _ hc => List.mem_singleton.1 hc ▸ h

theorem hasTokens_blanks {blanks : List Char} (h : ∀ c ∈ blanks, isSpace c = true) :
    HasTokens blanks [] where
  within := by
    have hall : (blanks ++ []).dropWhile isSpace = [].dropWhile isSpace :=
      List.dropWhile_append_of_pos h
    rw [List.append_nil, List.dropWhile_nil] at hall
    simp [tokensWithin?, hall]
  short := Nat.zero_le _

namespace HasTokens

variable {rest : List Char} {tokens : List Token}

/-- Blanks before a text have no tokens. -/
theorem blanks (h : HasTokens rest tokens) (blanks : List Char)
    (hblanks : ∀ c ∈ blanks, isSpace c = true) : HasTokens (blanks ++ rest) tokens where
  within := by
    have hdrop : (blanks ++ rest).dropWhile isSpace = rest.dropWhile isSpace :=
      List.dropWhile_append_of_pos hblanks
    rw [← h.within, tokensWithin?, tokensWithin?, hdrop]
  short := Nat.le_trans h.short (by simp)

/-- A token before a text is one more. -/
theorem token (h : HasTokens rest tokens) {c : Char} {cs : List Char} {token : Token}
    (hspace : isSpace c = false) (htoken : token? (c :: cs ++ rest) = some (token, rest)) :
    HasTokens (c :: cs ++ rest) (token :: tokens) where
  within := by
    have hdrop : (c :: cs ++ rest).dropWhile isSpace = c :: cs ++ rest := by simp [hspace]
    rw [List.cons_append] at htoken hdrop ⊢
    rw [List.length_cons, tokensWithin?, hdrop]
    simp [htoken, h.within]
  short := by
    have := h.short
    simp only [List.length_append, List.length_cons]
    omega

/-- A text in quotes before a text is one token more. -/
theorem quote (h : HasTokens rest tokens) (s : String) :
    HasTokens (Json.quote s ++ rest) (.text (some s) :: tokens) :=
  h.token (by decide) (token?_quote s rest)

/-- A numeral before a text that can follow one is one token more. -/
theorem numeral (h : HasTokens rest tokens) (hrest : EndsNumeral rest) {numeral : Numeral}
    (hnumeral : numeral.Wellformed) :
    HasTokens (numeral.text ++ rest) (.scalar numeral.value :: tokens) := by
  obtain ⟨c, cs, htext, hfirst⟩ := exists_text_eq_cons hnumeral
  have hread := numeral?_text hnumeral hrest
  rw [htext] at hread ⊢
  -- The numeral begins with its sign or with a digit, which is no blank.
  have hspace : isSpace c = false := by
    rcases hfirst with rfl | hdigit
    · rfl
    · exact isSpace_of_isDigit hdigit
  have htoken : token? (c :: cs ++ rest) = some (.scalar numeral.value, rest) := by
    rw [List.cons_append] at hread ⊢
    unfold token?
    split <;> simp_all
  exact h.token hspace htoken

end HasTokens

end CodeAssist.Json
