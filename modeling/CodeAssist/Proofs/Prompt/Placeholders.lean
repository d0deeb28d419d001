import CodeAssist.Proofs.Prompt.Template
import Mathlib.Logic.Function.Basic

/-!
# Placeholders of a text

A text falls into placeholders and other characters (`Piece.ofText`). It can be filled in at one
stroke, by a value for each placeholder (`Piece.fill`), or the placeholders can be exchanged one
after the other. No two placeholders overlap, since each of them begins with the only opening brace
that it has. So a single exchange does what filling in does (`replaceAll_placeholder`), and every
occurrence of a placeholder is one of the pieces (`count_ofText`).

Behind the first exchange the text may have placeholders that are no pieces of the first text: those
that stand in a value, and those that a value completes. Whether it has is told by the number of
occurrences: they are at least as many as the pieces (`count_le_occurrences`), and where they are as
many, the next exchange is right again (`replaceAll_fill`). A value that has no braces, and a
character that no placeholder has, neither holds nor completes any (`occurrences_fill`).
-/

namespace CodeAssist

/-! ### Occurrences in joined texts -/

namespace Text

variable {pattern replacement us cs : List Char} {first : Char} {body : List Char}

theorem occurrences_le_append (pattern us cs : List Char) :
    occurrences pattern cs ≤ occurrences pattern (us ++ cs) := by
  induction us with
  | nil => exact Nat.le_refl _
  | cons u us ih =>
    rw [List.cons_append, occurrences_cons]
    exact Nat.le_add_right_of_le ih

/-- A pattern does not start where its first character is missing. -/
theorem occurrences_append_of_notMem (h : first ∉ us) (body cs : List Char) :
    occurrences (first :: body) (us ++ cs) = occurrences (first :: body) cs := by
  induction us with
  | nil => rfl
  | cons u us ih =>
    rw [List.mem_cons, not_or] at h
    have hhead : (first :: body).isPrefixOf (u :: (us ++ cs)) = false := by
      simp [List.isPrefixOf, h.1]
    rw [List.cons_append, occurrences_cons, hhead, ih h.2]
    rfl

/-- A pattern that begins with a character of its own occurs once in itself. -/
theorem occurrences_append_self (h : first ∉ body) (cs : List Char) :
    occurrences (first :: body) (first :: body ++ cs) = occurrences (first :: body) cs + 1 := by
  have hhead : (first :: body).isPrefixOf (first :: (body ++ cs)) = true :=
    List.isPrefixOf_iff_prefix.2 (List.prefix_append (first :: body) cs)
  rw [List.cons_append, occurrences_cons, hhead, occurrences_append_of_notMem h]
  rfl

theorem replaceFrom_append (pattern replacement us cs : List Char) :
    replaceFrom pattern replacement us.length (us ++ cs) = replaceAll pattern replacement cs := by
  induction us with
  | nil => rfl
  | cons u us ih => exact ih

theorem replaceAll_append_self (hpattern : pattern ≠ []) (replacement cs : List Char) :
    replaceAll pattern replacement (pattern ++ cs) =
      replacement ++ replaceAll pattern replacement cs := by
  cases pattern with
  | nil => exact absurd rfl hpattern
  | cons first body =>
    have hhead : (first :: body).isPrefixOf (first :: (body ++ cs)) = true :=
      List.isPrefixOf_iff_prefix.2 (List.prefix_append (first :: body) cs)
    rw [replaceAll, List.cons_append, replaceFrom, if_pos hhead, List.length_cons,
      Nat.add_sub_cancel, replaceFrom_append]

/-- What no occurrence starts in stays as it is. -/
theorem replaceAll_append (h : occurrences pattern (us ++ cs) = occurrences pattern cs)
    (replacement : List Char) :
    replaceAll pattern replacement (us ++ cs) = us ++ replaceAll pattern replacement cs := by
  induction us with
  | nil => rfl
  | cons u us ih =>
    -- an occurrence within the first part would be one more
    have hle := occurrences_le_append pattern us cs
    rw [List.cons_append, occurrences_cons] at h
    split at h
    · omega
    · next hhead =>
      rw [List.cons_append, replaceAll, replaceFrom, if_neg hhead, ← replaceAll, ih (by omega)]
      rfl

end Text

namespace Prompt.Template

/-! ### Pieces -/

/-- What a template asks for. -/
inductive Placeholder where
  | fileName
  | language
  | code
deriving DecidableEq, Repr

namespace Placeholder

/-- A placeholder as it is written. -/
def text : Placeholder → List Char
  | fileName => fileNamePlaceholder
  | language => languagePlaceholder
  | code => codePlaceholder

/-- A placeholder behind its opening brace. -/
def body (p : Placeholder) : List Char :=
  p.text.tail

theorem text_eq (p : Placeholder) : p.text = '\x7b' :: p.body := by
  cases p <;> decide +kernel

/-- A placeholder has one opening brace. -/
theorem notMem_body (p : Placeholder) : '\x7b' ∉ p.body := by
  cases p <;> decide +kernel

/-- A text begins with one placeholder at most. -/
theorem eq_of_prefix {p q : Placeholder} {cs : List Char} (hp : p.text <+: cs)
    (hq : q.text <+: cs) : p = q := by
  have hfree : ∀ p q : Placeholder, p.text <+: q.text → p = q := by
    intro p q
    cases p <;> cases q <;> decide +kernel
  rcases List.prefix_or_prefix_of_prefix hp hq with h | h
  · exact hfree p q h
  · exact (hfree q p h).symm

/-- The placeholder that a text begins with. -/
def atStart? (cs : List Char) : Option Placeholder :=
  [fileName, language, code].find? fun p => p.text.isPrefixOf cs

theorem prefix_of_atStart? {cs : List Char} {p : Placeholder} (h : atStart? cs = some p) :
    p.text <+: cs := by
  have hfound : p.text.isPrefixOf cs = true :=
    List.find?_some (p := fun p : Placeholder => p.text.isPrefixOf cs) h
  exact List.isPrefixOf_iff_prefix.1 hfound

theorem atStart?_eq_some_iff {cs : List Char} {p : Placeholder} :
    atStart? cs = some p ↔ p.text <+: cs := by
  refine ⟨prefix_of_atStart?, fun h => ?_⟩
  cases hfound : atStart? cs with
  | none =>
    have hmem : p ∈ [fileName, language, code] := by cases p <;> decide
    exact absurd (List.isPrefixOf_iff_prefix.2 h) (List.find?_eq_none.1 hfound p hmem)
  | some q => rw [Placeholder.eq_of_prefix (prefix_of_atStart? hfound) h]

instance {P : Placeholder → Prop} [DecidablePred P] : Decidable (∀ p, P p) :=
  decidable_of_iff (P fileName ∧ P language ∧ P code)
    ⟨fun ⟨hfileName, hlanguage, hcode⟩ p => by cases p <;> assumption, fun h => ⟨h _, h _, h _⟩⟩

theorem length_text_pos (p : Placeholder) : 0 < p.text.length := by
  rw [text_eq]
  exact Nat.succ_pos _

/-- A text begins with a placeholder, or with a character that none begins at. -/
@[elab_as_elim]
theorem text_induction {P : List Char → Prop} (nil : P [])
    (placeholder : ∀ (p : Placeholder) cs, P cs → P (p.text ++ cs))
    (char : ∀ c cs, (∀ p : Placeholder, ¬ p.text <+: c :: cs) → P cs → P (c :: cs))
    (cs : List Char) : P cs := by
  -- a placeholder is longer than a character, so the induction is on the length
  induction hlength : cs.length using Nat.strong_induction_on generalizing cs with
  | h n ih =>
    cases cs with
    | nil => exact nil
    | cons c cs =>
      by_cases hstart : ∃ p : Placeholder, p.text <+: c :: cs
      · obtain ⟨p, rest, hrest⟩ := hstart
        have hsum := congrArg List.length hrest
        have hpos := p.length_text_pos
        rw [List.length_append] at hsum
        rw [← hrest]
        exact placeholder p rest (ih rest.length (by omega) rest rfl)
      · rw [List.length_cons] at hlength
        exact char c cs (not_exists.1 hstart) (ih cs.length (by omega) cs rfl)

end Placeholder

/-- A placeholder of a text, or one of its other characters. -/
inductive Piece where
  | char (c : Char)
  | hole (p : Placeholder)
deriving DecidableEq, Repr

namespace Piece

/-- The pieces of a text behind the next `skip` characters, which are passed over. -/
def scan : Nat → List Char → List Piece
  | _, [] => []
  | skip + 1, _ :: cs => scan skip cs
  | 0, c :: cs =>
    match Placeholder.atStart? (c :: cs) with
    | some p => hole p :: scan (p.text.length - 1) cs
    | none => char c :: scan 0 cs

/-- The pieces of a text. -/
def ofText (cs : List Char) : List Piece :=
  scan 0 cs

/-- A piece with values for the placeholders. -/
def value (values : Placeholder → List Char) : Piece → List Char
  | char c => [c]
  | hole p => values p

/-- Pieces put together, each placeholder replaced by its value. -/
def fill (values : Placeholder → List Char) (pieces : List Piece) : List Char :=
  pieces.flatMap (value values)

@[simp] theorem fill_nil (values : Placeholder → List Char) : fill values [] = [] := rfl

theorem fill_cons (values : Placeholder → List Char) (piece : Piece) (pieces : List Piece) :
    fill values (piece :: pieces) = piece.value values ++ fill values pieces :=
  List.flatMap_cons

/-- A new value for a placeholder changes its own pieces only. -/
theorem value_update_of_ne {p : Placeholder} {piece : Piece} (h : piece ≠ hole p)
    (values : Placeholder → List Char) (replacement : List Char) :
    piece.value (Function.update values p replacement) = piece.value values := by
  cases piece with
  | char c => rfl
  | hole q => exact Function.update_of_ne (fun hq => h (congrArg hole hq)) _ _

theorem scan_append (us cs : List Char) : scan us.length (us ++ cs) = ofText cs := by
  induction us with
  | nil => rfl
  | cons u us ih => exact ih

theorem ofText_placeholder (p : Placeholder) (cs : List Char) :
    ofText (p.text ++ cs) = hole p :: ofText cs := by
  have hstart : Placeholder.atStart? ('\x7b' :: (p.body ++ cs)) = some p := by
    rw [Placeholder.atStart?_eq_some_iff, p.text_eq]
    exact List.prefix_append ('\x7b' :: p.body) cs
  have hlength : p.text.length - 1 = p.body.length := by
    rw [p.text_eq, List.length_cons, Nat.add_sub_cancel]
  rw [p.text_eq, List.cons_append, ofText, scan, hstart]
  change hole p :: scan (p.text.length - 1) (p.body ++ cs) = hole p :: ofText cs
  rw [hlength, scan_append]

theorem ofText_char {c : Char} {cs : List Char} (h : ∀ p : Placeholder, ¬ p.text <+: c :: cs) :
    ofText (c :: cs) = char c :: ofText cs := by
  have hstart : Placeholder.atStart? (c :: cs) = none := by
    cases hfound : Placeholder.atStart? (c :: cs) with
    | none => rfl
    | some p => exact absurd (Placeholder.atStart?_eq_some_iff.1 hfound) (h p)
  rw [ofText, scan, hstart]
  rfl

/-- **The pieces lose nothing.** -/
theorem fill_ofText (cs : List Char) : fill Placeholder.text (ofText cs) = cs := by
  induction cs using Placeholder.text_induction with
  | nil => rfl
  | placeholder p cs ih => rw [ofText_placeholder, fill_cons, ih, value]
  | char c cs hstart ih => rw [ofText_char hstart, fill_cons, ih, value, List.singleton_append]

/-! ### Occurrences -/

section Occurrences

variable (values : Placeholder → List Char) {p : Placeholder} {pieces : List Piece}

theorem occurrences_append_of_notMem_brace (p : Placeholder) {us : List Char} (h : '\x7b' ∉ us)
    (cs : List Char) : Text.occurrences p.text (us ++ cs) = Text.occurrences p.text cs := by
  rw [p.text_eq]
  exact Text.occurrences_append_of_notMem h p.body cs

theorem occurrences_text_append (p : Placeholder) (cs : List Char) :
    Text.occurrences p.text (p.text ++ cs) = Text.occurrences p.text cs + 1 := by
  rw [p.text_eq]
  exact Text.occurrences_append_self p.notMem_body cs

/-- No placeholder starts in another one. -/
theorem occurrences_append_of_ne {q : Placeholder} (h : p ≠ q) (cs : List Char) :
    Text.occurrences p.text (q.text ++ cs) = Text.occurrences p.text cs := by
  have hhead : ¬ p.text.isPrefixOf ('\x7b' :: (q.body ++ cs)) = true := fun hp =>
    h (Placeholder.eq_of_prefix (List.isPrefixOf_iff_prefix.1 hp)
      (q.text_eq ▸ List.prefix_append ('\x7b' :: q.body) cs))
  rw [q.text_eq, List.cons_append, Text.occurrences_cons, if_neg hhead, Nat.add_zero,
    occurrences_append_of_notMem_brace p q.notMem_body]

/-- **Every occurrence is a piece.** -/
theorem count_ofText (p : Placeholder) (cs : List Char) :
    (ofText cs).count (hole p) = Text.occurrences p.text cs := by
  induction cs using Placeholder.text_induction with
  | nil => cases p <;> decide +kernel
  | placeholder q cs ih =>
    -- a placeholder that begins here overlaps with no other, so it is counted once
    rw [ofText_placeholder, List.count_cons, ih]
    by_cases hq : q = p
    · subst hq
      rw [occurrences_text_append, beq_self_eq_true, if_pos rfl]
    · rw [occurrences_append_of_ne (Ne.symm hq), if_neg (by simpa using hq), Nat.add_zero]
  | char c cs hstart ih =>
    rw [ofText_char hstart, List.count_cons_of_ne (by simp), ih, Text.occurrences_cons,
      if_neg (fun hp => hstart p (List.isPrefixOf_iff_prefix.1 hp)), Nat.add_zero]

/-- A placeholder that is left as it is occurs as often as it is a piece, or more often. -/
theorem count_le_occurrences (hp : values p = p.text) (pieces : List Piece) :
    pieces.count (hole p) ≤ Text.occurrences p.text (fill values pieces) := by
  induction pieces with
  | nil => exact Nat.zero_le _
  | cons piece pieces ih =>
    rw [fill_cons]
    by_cases hpiece : piece = hole p
    · rw [hpiece, List.count_cons_self, value, hp, occurrences_text_append]
      exact Nat.succ_le_succ ih
    · rw [List.count_cons_of_ne hpiece]
      exact Nat.le_trans ih (Text.occurrences_le_append ..)

/-- **One exchange** fills in a placeholder that occurs in no other place than its pieces. -/
theorem replaceAll_fill (hp : values p = p.text)
    (h : Text.occurrences p.text (fill values pieces) = pieces.count (hole p))
    (replacement : List Char) :
    Text.replaceAll p.text replacement (fill values pieces) =
      fill (Function.update values p replacement) pieces := by
  induction pieces with
  | nil => rfl
  | cons piece pieces ih =>
    have hle := count_le_occurrences values hp pieces
    rw [fill_cons] at h
    rw [fill_cons, fill_cons]
    -- the hole is the only piece that changes, and it is found where it stands
    by_cases hpiece : piece = hole p
    · rw [hpiece, List.count_cons_self, value, hp, occurrences_text_append] at h
      rw [hpiece, value, hp, value, Function.update_self,
        Text.replaceAll_append_self (List.ne_nil_of_length_pos p.length_text_pos),
        ih (by omega)]
    · have hrest := Text.occurrences_le_append p.text (piece.value values) (fill values pieces)
      rw [List.count_cons_of_ne hpiece] at h
      rw [Text.replaceAll_append (by omega), ih (by omega), value_update_of_ne hpiece]

/-- An exchange in a text fills in its pieces. -/
theorem replaceAll_placeholder (p : Placeholder) (replacement cs : List Char) :
    Text.replaceAll p.text replacement cs =
      fill (Function.update Placeholder.text p replacement) (ofText cs) := by
  have hcount : Text.occurrences p.text (fill Placeholder.text (ofText cs)) =
      (ofText cs).count (hole p) := by
    rw [fill_ofText, count_ofText]
  have h := replaceAll_fill Placeholder.text rfl hcount replacement
  rwa [fill_ofText] at h

/-- An exchange keeps the other placeholders. -/
theorem occurrences_le_replaceAll {q : Placeholder} (h : q ≠ p) (replacement cs : List Char) :
    Text.occurrences q.text cs ≤
      Text.occurrences q.text (Text.replaceAll p.text replacement cs) := by
  rw [replaceAll_placeholder, ← count_ofText]
  exact count_le_occurrences _ (Function.update_of_ne h _ _) _

end Occurrences

/-! ### Values that add no placeholder -/

/-- A value without braces that has a character which no placeholder has. -/
structure Inert (us : List Char) : Prop where
  notMem_open : '\x7b' ∉ us
  notMem_close : '\x7d' ∉ us
  exists_foreign : ∃ c ∈ us, ∀ p : Placeholder, c ∉ p.text

instance : DecidablePred Inert := fun us =>
  -- a character of the text is looked for, not one of all characters
  have : Decidable (∃ c ∈ us, ∀ p : Placeholder, c ∉ p.text) := List.decidableBEx _ us
  decidable_of_iff ('\x7b' ∉ us ∧ '\x7d' ∉ us ∧ ∃ c ∈ us, ∀ p : Placeholder, c ∉ p.text)
    ⟨fun ⟨hopen, hclose, hforeign⟩ => ⟨hopen, hclose, hforeign⟩,
      fun ⟨hopen, hclose, hforeign⟩ => ⟨hopen, hclose, hforeign⟩⟩

section Inert

variable {values : Placeholder → List Char} {p : Placeholder} {pieces : List Piece}

/-- Each end of a placeholder has its closing brace. -/
theorem close_mem_of_suffix {part : List Char} (h : part <:+ p.body) (hpart : part ≠ []) :
    '\x7d' ∈ part := by
  have hlast : p.body.getLast? = some '\x7d' := by cases p <;> decide +kernel
  obtain ⟨before, hbefore⟩ := h
  rw [← hbefore, List.getLast?_append_of_ne_nil _ hpart] at hlast
  exact List.mem_of_getLast? hlast

/-- **Inert values complete no placeholder.** The end of one that stands at the start of a filled-in
text stands there in the text itself. -/
theorem prefix_fill (hvalues : ∀ q : Placeholder, values q = q.text ∨ Inert (values q))
    {part : List Char} (hpart : part <:+ p.body) (h : part <+: fill values pieces) :
    part <+: fill Placeholder.text pieces := by
  induction pieces generalizing part with
  | nil => exact h
  -- each step takes a character of the pattern, which stays an end of the placeholder's body
  | cons piece pieces ih =>
    rw [fill_cons] at h ⊢
    cases part with
    | nil => exact List.nil_prefix
    | cons u part =>
      have hbody : (u :: part) ⊆ p.body := hpart.subset
      cases piece with
      | char c =>
        obtain ⟨rfl, hrest⟩ := List.cons_prefix_cons.1 h
        exact List.cons_prefix_cons.2 ⟨rfl, ih ((List.suffix_cons u part).trans hpart) hrest⟩
      | hole q =>
        rw [value] at h
        obtain htext | hinert := hvalues q
        · -- a placeholder begins with a brace, and no later character of one is a brace
          rw [htext, q.text_eq] at h
          obtain ⟨rfl, -⟩ := List.cons_prefix_cons.1 h
          exact absurd (hbody List.mem_cons_self) p.notMem_body
        · rcases List.prefix_or_prefix_of_prefix h (List.prefix_append (values q) _) with hle | hle
          · exact absurd (hle.subset (close_mem_of_suffix hpart (List.cons_ne_nil u part)))
              -- the value has a character that no placeholder has
              hinert.notMem_close
          · obtain ⟨c, hc, hforeign⟩ := hinert.exists_foreign
            refine absurd ?_ (hforeign p)
            rw [p.text_eq]
            exact List.mem_cons_of_mem _ (hbody (hle.subset hc))

/-- **Inert values add no placeholder.** A placeholder that is left as it is occurs in no other
place than before. -/
theorem occurrences_fill (hvalues : ∀ q : Placeholder, values q = q.text ∨ Inert (values q))
    (hp : values p = p.text)
    (h : Text.occurrences p.text (fill Placeholder.text pieces) = pieces.count (hole p)) :
    Text.occurrences p.text (fill values pieces) = pieces.count (hole p) := by
  induction pieces with
  | nil => exact h
  | cons piece pieces ih =>
    have hle := count_le_occurrences Placeholder.text (p := p) rfl pieces
    rw [fill_cons] at h ⊢
    -- a piece of another kind brings no occurrence, and none begins in it
    by_cases hpiece : piece = hole p
    · rw [hpiece, List.count_cons_self, value, occurrences_text_append] at h
      rw [hpiece, List.count_cons_self, value, hp, occurrences_text_append, ih (by omega)]
    · rw [List.count_cons_of_ne hpiece] at h ⊢
      have hrest := Text.occurrences_le_append p.text (piece.value Placeholder.text)
        (fill Placeholder.text pieces)
      rw [← ih (by omega)]
      cases piece with
      | char c =>
        rw [value, List.singleton_append, Text.occurrences_cons] at h ⊢
        -- a placeholder that begins here would also begin here before
        have hstart : ¬ p.text.isPrefixOf (c :: fill values pieces) = true := by
          intro hstart
          have hbefore : p.text.isPrefixOf (c :: fill Placeholder.text pieces) = true := by
            rw [List.isPrefixOf_iff_prefix, p.text_eq, List.cons_prefix_cons] at hstart ⊢
            exact ⟨hstart.1, prefix_fill hvalues (List.suffix_refl _) hstart.2⟩
          rw [if_pos hbefore] at h
          omega
        rw [if_neg hstart, Nat.add_zero]
      | hole q =>
        rw [value]
        have hne : p ≠ q := fun hpq => hpiece (congrArg hole hpq.symm)
        obtain htext | hinert := hvalues q
        -- a placeholder of another kind holds none of this one
        · rw [htext, occurrences_append_of_ne hne]
        · exact occurrences_append_of_notMem_brace p hinert.notMem_open _

end Inert

/-! ### Counting braces -/

section Braces

variable {replacement : List Char}

/-- Each placeholder that is filled in by a value without braces takes one opening brace away. -/
theorem count_brace_fill (values : Placeholder → List Char) {p : Placeholder}
    (hp : values p = p.text) (hbrace : '\x7b' ∉ replacement) (pieces : List Piece) :
    (fill (Function.update values p replacement) pieces).count '\x7b' + pieces.count (hole p) =
      (fill values pieces).count '\x7b' := by
  induction pieces with
  | nil => rfl
  | cons piece pieces ih =>
    rw [fill_cons, fill_cons, List.count_append, List.count_append, ← ih]
    by_cases hpiece : piece = hole p
    · have hone : p.text.count '\x7b' = 1 := by
        rw [p.text_eq, List.count_cons_self, List.count_eq_zero.2 p.notMem_body]
      rw [hpiece, List.count_cons_self, value, value, Function.update_self, hp, hone,
        List.count_eq_zero.2 hbrace]
      omega
    -- a piece of another kind has the same value before and after
    · rw [value_update_of_ne hpiece, List.count_cons_of_ne hpiece]
      omega

/-- Each occurrence that is exchanged for a value without braces takes one opening brace away. -/
theorem count_brace_replaceAll (p : Placeholder) (hbrace : '\x7b' ∉ replacement)
    (cs : List Char) :
    (Text.replaceAll p.text replacement cs).count '\x7b' + Text.occurrences p.text cs =
      cs.count '\x7b' := by
  have hcount := count_brace_fill Placeholder.text (p := p) rfl hbrace (ofText cs)
  rwa [fill_ofText, count_ofText, ← replaceAll_placeholder] at hcount

end Braces

/-- What does not depend on the value of a placeholder falls into parts between which the value
stands. -/
theorem exists_parts (values : Placeholder → List Char) (p : Placeholder) (pieces : List Piece) :
    ∃ first later, ∀ replacement : List Char,
      fill (Function.update values p replacement) pieces =
        replacement.intercalate (first :: later) := by
  induction pieces with
  | nil => exact ⟨[], [], fun replacement => rfl⟩
  | cons piece pieces ih =>
    obtain ⟨first, later, hparts⟩ := ih
    -- the replacement stands between the parts, so each hole begins a new part
    by_cases hpiece : piece = hole p
    · refine ⟨[], first :: later, fun replacement => ?_⟩
      rw [fill_cons, hpiece, value, Function.update_self, hparts, List.intercalate_cons_cons,
        List.nil_append]
    · refine ⟨piece.value values ++ first, later, fun replacement => ?_⟩
      rw [fill_cons, value_update_of_ne hpiece, hparts]
      cases later with
      | nil => simp
      | cons second later =>
        rw [List.intercalate_cons_cons, List.intercalate_cons_cons, List.append_assoc,
          List.append_assoc, List.append_assoc]

end Piece

end Prompt.Template

end CodeAssist
