import CodeAssist.Proofs.Prompt.Placeholders

/-!
# Filling in a template

A text of the user's own is filled in by three exchanges: first the name of the file, then the name
of the language, the code last. Filled in at one stroke (`filledAtOnce`), only the placeholders of
the text itself are replaced. Both differ where an exchange adds a placeholder of a later one: the
name of a file may hold one or complete one, and so may the text where nothing is written for the
language. They agree exactly where this does not happen (`AddsNoPlaceholder`). It cannot happen in a
known language for a file name without braces that has a character of its own, such as a dot. The
code is filled in last, so nothing in it is ever taken for a placeholder.

Main statement: `custom_by_pieces`.
-/

namespace CodeAssist.Prompt.Template

/-! ### At one stroke -/

/-- What is written for a language. -/
def languageName (language : Option Language) : List Char :=
  ((language.map Language.proseName).getD "").toList

/-- What is written for each placeholder. -/
def valuesFor (fileName : String) (language : Option Language) (code : String) :
    Placeholder → List Char
  | .fileName => fileName.toList
  | .language => languageName language
  | .code => code.toList

/-- A text of the user's own, all placeholders of which are replaced at one stroke. -/
def filledAtOnce (text code fileName : String) (language : Option Language) : String :=
  String.ofList (Piece.fill (valuesFor fileName language code) (Piece.ofText text.toList))

/-! ### One after the other -/

/-- A text with the name of the file. -/
def named (text fileName : String) : List Char :=
  Text.replaceAll fileNamePlaceholder fileName.toList text.toList

/-- A text with the names of the file and of the language. -/
def told (text fileName : String) (language : Option Language) : List Char :=
  Text.replaceAll languagePlaceholder (languageName language) (named text fileName)

/-- The names of the file and of the language bring in no placeholder that is exchanged later. -/
structure AddsNoPlaceholder (text fileName : String) (language : Option Language) : Prop where
  language_eq : Text.occurrences languagePlaceholder (named text fileName) =
    Text.occurrences languagePlaceholder text.toList
  code_eq : Text.occurrences codePlaceholder (told text fileName language) =
    Text.occurrences codePlaceholder text.toList

section Exchanges

variable {text fileName : String} {language : Option Language}

theorem toList_render_custom (text code fileName : String) (language : Option Language) :
    ((custom text).render code fileName language).toList =
      Text.replaceAll codePlaceholder code.toList (told text fileName language) := by
  rw [render, String.toList_ofList]
  rfl

/-- The values behind the first exchange: other placeholders stay as they are. -/
def fileFor (fileName : String) : Placeholder → List Char :=
  Function.update Placeholder.text .fileName fileName.toList

/-- The values behind the second exchange. -/
def namesFor (fileName : String) (language : Option Language) : Placeholder → List Char :=
  Function.update (fileFor fileName) .language (languageName language)

theorem valuesFor_eq (fileName : String) (language : Option Language) (code : String) :
    valuesFor fileName language code =
      Function.update (namesFor fileName language) .code code.toList := by
  funext p
  cases p <;> rfl

theorem named_eq (text fileName : String) :
    named text fileName = Piece.fill (fileFor fileName) (Piece.ofText text.toList) :=
  Piece.replaceAll_placeholder .fileName fileName.toList text.toList

/-- The second exchange is right where the first one adds no placeholder for the language. -/
theorem told_eq (h : Text.occurrences languagePlaceholder (named text fileName) =
      Text.occurrences languagePlaceholder text.toList) :
    told text fileName language =
      Piece.fill (namesFor fileName language) (Piece.ofText text.toList) := by
  have hcount := Piece.count_ofText .language text.toList
  rw [named_eq] at h
  rw [told, named_eq]
  exact Piece.replaceAll_fill (fileFor fileName) (p := .language) rfl (h.trans hcount.symm) _

/-- Without new placeholders three exchanges fill in the text. -/
theorem render_custom_of_addsNone (h : AddsNoPlaceholder text fileName language) (code : String) :
    (custom text).render code fileName language = filledAtOnce text code fileName language := by
  have hcount := Piece.count_ofText .code text.toList
  have hcode := h.code_eq
  rw [told_eq h.language_eq] at hcode
  rw [← String.toList_inj, toList_render_custom, told_eq h.language_eq, filledAtOnce,
    String.toList_ofList, valuesFor_eq]
  exact Piece.replaceAll_fill (namesFor fileName language) (p := .code) rfl
    (hcode.trans hcount.symm) _

/-! ### New placeholders -/

theorem brace_notMem_languageName (language : Option Language) :
    '\x7b' ∉ languageName language := by
  cases language with
  | none => decide +kernel
  | some known => cases known <;> decide +kernel

/-- A placeholder of the text is there behind each exchange of another one. -/
theorem occurrences_le_named (text fileName : String) {p : Placeholder} (hp : p ≠ .fileName) :
    Text.occurrences p.text text.toList ≤ Text.occurrences p.text (named text fileName) :=
  Piece.occurrences_le_replaceAll (p := .fileName) hp fileName.toList text.toList

/-- **A new placeholder is a brace too few.** For code without an opening brace, three exchanges
that come to the same as one stroke added no placeholder. -/
theorem addsNone_of_render_custom {code : String} (hcode : '\x7b' ∉ code.toList)
    (h : (custom text).render code fileName language = filledAtOnce text code fileName language) :
    AddsNoPlaceholder text fileName language := by
  have hname := brace_notMem_languageName language
  rw [← String.toList_inj, toList_render_custom, filledAtOnce, String.toList_ofList,
    valuesFor_eq] at h
  -- each exchange takes away a brace for each occurrence
  have htold : (told text fileName language).count '\x7b' +
        Text.occurrences languagePlaceholder (named text fileName) =
      (named text fileName).count '\x7b' :=
    Piece.count_brace_replaceAll .language hname (named text fileName)
  have hrendered : (Text.replaceAll codePlaceholder code.toList
        (told text fileName language)).count '\x7b' +
        Text.occurrences codePlaceholder (told text fileName language) =
      (told text fileName language).count '\x7b' :=
    Piece.count_brace_replaceAll .code hcode (told text fileName language)
  -- one stroke takes away a brace for each piece
  have hlanguage := Piece.count_brace_fill (fileFor fileName) (p := .language) rfl hname
    (Piece.ofText text.toList)
  have hfilled := Piece.count_brace_fill (namesFor fileName language) (p := .code) rfl hcode
    (Piece.ofText text.toList)
  rw [Piece.count_ofText, ← named_eq, ← namesFor] at hlanguage
  rw [Piece.count_ofText, ← h] at hfilled
  -- no exchange can take away fewer than the pieces
  have hlanguageLe : Text.occurrences languagePlaceholder text.toList ≤
      Text.occurrences languagePlaceholder (named text fileName) :=
    occurrences_le_named text fileName (p := .language) (by decide)
  have hcodeLe : Text.occurrences codePlaceholder text.toList ≤
      Text.occurrences codePlaceholder (told text fileName language) :=
    Nat.le_trans (occurrences_le_named text fileName (p := .code) (by decide))
      (Piece.occurrences_le_replaceAll (p := .language) (q := .code) (by decide) _ _)
  have hlanguageText : Placeholder.text .language = languagePlaceholder := rfl
  have hcodeText : Placeholder.text .code = codePlaceholder := rfl
  rw [hlanguageText] at hlanguage
  rw [hcodeText] at hfilled
  constructor <;> omega

/-! ### Names that add nothing -/

/-- The name of a language begins with a capital letter. -/
theorem inert_proseName (known : Language) : Piece.Inert known.proseName.toList := by
  cases known <;> decide +kernel

/-- In a known language an inert name of a file adds no placeholder. -/
theorem addsNone_of_inert (known : Language) (h : Piece.Inert fileName.toList) :
    AddsNoPlaceholder text fileName (some known) := by
  -- every value is the placeholder itself or a text in which none begins
  have hfile : ∀ q : Placeholder,
      fileFor fileName q = q.text ∨ Piece.Inert (fileFor fileName q) := by
    intro q
    cases q
    case fileName => exact .inr h
    all_goals exact .inl rfl
  have hnames : ∀ q : Placeholder, namesFor fileName (some known) q = q.text ∨
      Piece.Inert (namesFor fileName (some known) q) := by
    intro q
    cases q
    case fileName => exact .inr h
    case language => exact .inr (inert_proseName known)
    case code => exact .inl rfl
  have hpieces : ∀ p : Placeholder,
      Text.occurrences p.text (Piece.fill Placeholder.text (Piece.ofText text.toList)) =
        (Piece.ofText text.toList).count (.hole p) := by
    intro p
    rw [Piece.fill_ofText, Piece.count_ofText]
  -- with nothing new to find, each exchange meets the template's own pieces
  have hlanguage : Text.occurrences languagePlaceholder (named text fileName) =
      Text.occurrences languagePlaceholder text.toList := by
    rw [named_eq]
    exact (Piece.occurrences_fill hfile (p := .language) rfl (hpieces _)).trans
      (Piece.count_ofText ..)
  refine ⟨hlanguage, ?_⟩
  rw [told_eq hlanguage]
  exact (Piece.occurrences_fill hnames (p := .code) rfl (hpieces _)).trans (Piece.count_ofText ..)

end Exchanges

/-! ### Both ways -/

/-- **The placeholders of a text** are filled in one after the other, which comes to the same as one
stroke where the names bring in no placeholder, and for code without an opening brace only there.
Names of files without braces that have a character of their own bring in none, in a known language.
The code itself is never searched: it stands between parts that do not depend on it. -/
theorem custom_by_pieces (text fileName : String) (language : Option Language) :
    Piece.fill Placeholder.text (Piece.ofText text.toList) = text.toList ∧
      (∀ p : Placeholder,
        (Piece.ofText text.toList).count (.hole p) = Text.occurrences p.text text.toList) ∧
      (AddsNoPlaceholder text fileName language → ∀ code,
        (custom text).render code fileName language = filledAtOnce text code fileName language) ∧
      (∀ code, '\x7b' ∉ code.toList →
        ((custom text).render code fileName language = filledAtOnce text code fileName language ↔
          AddsNoPlaceholder text fileName language)) ∧
      (language ≠ none → Piece.Inert fileName.toList → AddsNoPlaceholder text fileName language) ∧
      ∃ first later, ∀ code, ((custom text).render code fileName language).toList =
        code.toList.intercalate (first :: later) := by
  refine ⟨Piece.fill_ofText _, fun p => Piece.count_ofText p _, render_custom_of_addsNone,
    fun code hcode => ⟨addsNone_of_render_custom hcode, fun h => render_custom_of_addsNone h code⟩,
    fun hknown hinert => ?_, ?_⟩
  -- a known language has a name, and no name of one has a brace in it
  · obtain ⟨known, rfl⟩ := Option.ne_none_iff_exists'.1 hknown
    exact addsNone_of_inert known hinert
  · obtain ⟨first, later, hparts⟩ := Piece.exists_parts Placeholder.text .code
      (Piece.ofText (told text fileName language))
    refine ⟨first, later, fun code => ?_⟩
    rw [toList_render_custom, ← hparts]
    exact Piece.replaceAll_placeholder .code code.toList _

/-- The name of a file may hold a placeholder. Then the code is written into the name. -/
theorem custom_by_pieces_bracedName :
    let text := "# \x7bfile_name\x7d\n\x7bprefix\x7d"
    Piece.Inert "main.py".toList ∧
      (∀ code, (custom text).render code "main.py" (some .python) =
        filledAtOnce text code "main.py" (some .python)) ∧
      '\x7b' ∉ "x = 1".toList ∧
      (custom text).render "x = 1" "\x7bprefix\x7d.py" (some .python) = "# x = 1.py\nx = 1" ∧
      filledAtOnce text "x = 1" "\x7bprefix\x7d.py" (some .python) =
        "# \x7bprefix\x7d.py\nx = 1" ∧
      ¬ AddsNoPlaceholder text "\x7bprefix\x7d.py" (some .python) := by
  intro text
  have hinert : Piece.Inert "main.py".toList := by decide +kernel
  have hcode : '\x7b' ∉ "x = 1".toList := by decide +kernel
  have hrendered : (custom text).render "x = 1" "\x7bprefix\x7d.py" (some .python) =
      "# x = 1.py\nx = 1" := by
    decide +kernel
  have hfilled : filledAtOnce text "x = 1" "\x7bprefix\x7d.py" (some .python) =
      "# \x7bprefix\x7d.py\nx = 1" := by
    decide +kernel
  obtain ⟨-, -, hsame, -, hadds, -⟩ := custom_by_pieces text "main.py" (some .python)
  obtain ⟨-, -, -, hiff, -, -⟩ := custom_by_pieces text "\x7bprefix\x7d.py" (some .python)
  refine ⟨hinert, hsame (hadds (by decide) hinert), hcode, hrendered, hfilled, fun hnone => ?_⟩
  -- filled at once, the file name keeps its placeholder; the chain of exchanges fills it
  have heq := (hiff "x = 1" hcode).2 hnone
  rw [hrendered, hfilled] at heq
  exact absurd heq (by decide)

end CodeAssist.Prompt.Template
