import CodeAssist.Cleanup.Pipeline
import CodeAssist.Proofs.Cleanup.KeptLines

/-!
# Repeated lines that stand alone

A repeated line that is a group of its own is dropped where it begins like a comment. What a comment
begins with is the same for all languages, so the language of a completion plays no part
(`lone_line_left_out_iff`). A language has only some of these openers (`Language.openers`). Behind
one of the others a line is code, such as an attribute or a directive behind a hash, and it is
dropped all the same.

Main statement: `lone_lines_by_openers`.
-/

namespace CodeAssist

/-- What a comment of a language that fills one line begins with. -/
def Language.openers : Language → List (List Char)
  | .python | .ruby => [['#']]
  | .php => [['/', '*'], ['/', '/'], ['#']]
  | _ => [['/', '*'], ['/', '/']]

/-- What a comment in a given style begins with. -/
def CommentStyle.opener : CommentStyle → List Char
  | .doubleSlash => ['/', '/']
  | .slashStar => ['/', '*']
  | .hash => ['#']

/-- What a block comment ends at. -/
def CommentStyle.closer : List Char := ['*', '/']

/-- What stands behind the text of a comment in a given style. -/
def CommentStyle.ending : CommentStyle → List Char
  | .slashStar => ' ' :: closer
  | _ => []

theorem CommentStyle.toList_render (style : CommentStyle) (text : String) :
    (style.render text).toList = style.opener ++ (' ' :: text.toList ++ style.ending) := by
  cases style <;> simp [render, opener, ending, closer]

namespace Cleanup

/-- A line that begins, behind its blanks, as a comment of a language does. -/
def IsCommentOf (language : Language) (line : List Char) : Prop :=
  ∃ opener ∈ language.openers, opener <+: Text.trimStart line

/-! ### Openers -/

theorem openers_subset (language : Language) : language.openers ⊆ commentOpeners := by
  cases language <;> decide

/-- No line begins with two openers. -/
theorem opener_unique {cs first second : List Char} (hfirst : first ∈ commentOpeners)
    (hsecond : second ∈ commentOpeners) (h : first <+: cs) (h' : second <+: cs) :
    first = second := by
  -- no opener begins with another one
  have hfree : ∀ a ∈ commentOpeners, ∀ b ∈ commentOpeners, a <+: b → a = b := by decide
  rcases List.prefix_or_prefix_of_prefix h h' with hle | hle
  · exact hfree first hfirst second hsecond hle
  · exact (hfree second hsecond first hfirst hle).symm

/-- A line with an opener is no comment of a language where its opener is none of the language. -/
theorem not_isCommentOf_iff {language : Language} {line opener : List Char}
    (hopener : opener ∈ commentOpeners) (h : opener <+: Text.trimStart line) :
    ¬ IsCommentOf language line ↔ opener ∉ language.openers := by
  refine not_congr ⟨?_, fun hmem => ⟨opener, hmem, h⟩⟩
  rintro ⟨other, hmem, hother⟩
  rwa [opener_unique hopener (openers_subset language hmem) h hother]

/-- What a language spells as a comment begins with one of its openers. -/
theorem isCommentOf_render (language : Language) (text : String) :
    IsCommentOf language (language.commentStyle.render text).toList := by
  refine ⟨language.commentStyle.opener, ?_, ?_⟩
  · cases language <;> decide
  · generalize language.commentStyle = style
    -- no opener begins with a blank
    have hblank : ∀ cs, Text.trimStart (style.opener ++ cs) = style.opener ++ cs := by
      intro cs
      cases style <;> rfl
    rw [CommentStyle.toList_render, hblank]
    exact List.prefix_append _ _

/-- Hashes are code outside of three languages, and slashes where a comment is spelled with a
hash. -/
theorem exists_foreign_opener_iff (language : Language) (P : List Char → Prop) :
    (∃ opener ∈ commentOpeners, P opener ∧ opener ∉ language.openers) ↔
      (P ['/', '*'] ∨ P ['/', '/']) ∧ language.commentStyle = .hash ∨
        P ['#'] ∧ language ∉ [Language.python, .ruby, .php] := by
  cases language <;> simp [commentOpeners, Language.openers, Language.commentStyle]

/-! ### Lines that stand alone -/

variable {settings : RepeatSettings} {before after : List (List Char)} {i : Nat}
  {line : List Char}

theorem isLoneComment_singleton_iff :
    isLoneComment [line] = true ↔ ∃ opener ∈ commentOpeners, opener <+: Text.trimStart line := by
  simp only [isLoneComment, List.any_eq_true, List.isPrefixOf_iff_prefix]

/-- **A line that stands alone** is dropped exactly where it begins with an opener, as long as no
echoes are dropped and no single line is a large block. -/
theorem lone_line_left_out_iff (hoff : settings.dropEchoedLine = false)
    (hlarge : 2 ≤ settings.minBlockSize)
    (hgroup : [i] ∈ Text.commonLines (before.map Text.trim) (after.map Text.trim))
    (hline : after[i]? = some line) :
    i ∈ leftOut settings before after ↔
      ∃ opener ∈ commentOpeners, opener <+: Text.trimStart line := by
  -- there is no echo, and one line is too small for a large block
  have hecho : echo? settings before after = none := by simp [echo?, hoff]
  have hsmall : isMonotonous settings [line] = false := by
    refine Bool.eq_false_iff.2 fun hmonotonous => ?_
    have hle := minBlockSize_le_of_isMonotonous hmonotonous
    rw [List.length_singleton] at hle
    omega
  rw [mem_leftOut_iff_of_mem_group hgroup List.mem_cons_self, mem_droppedGroups_iff hgroup,
    linesThrough_singleton hline, hecho, ← isLoneComment_singleton_iff]
  simp [isDropped, hsmall]

/-- **Openers decide, not languages.** Where echoes are kept and a large block has two lines or
more, a repeated line that stands alone is dropped exactly if it begins with an opener of any
language. So it is dropped without being a comment of a language exactly if it begins with a slash
where comments are spelled with a hash, or with a hash outside of three languages. -/
theorem lone_lines_by_openers (site : CompletionSite) (completion : String)
    (hoff : site.settings.repeats.dropEchoedLine = false)
    (hlarge : 2 ≤ site.settings.repeats.minBlockSize) {rest following : List Char}
    (h : Text.restOfLine? site.before.toList completion.toList = some (rest, following)) :
    let before := Text.segments (site.before.toList ++ rest)
    let after := Text.segments following
    (site.run completion .removeRepeats).toList =
        rest ++ (keptLines site.settings.repeats before after).flatten ∧
      ∀ i line, [i] ∈ Text.commonLines (before.map Text.trim) (after.map Text.trim) →
        after[i]? = some line →
        (i ∈ leftOut site.settings.repeats before after ↔
          ∃ opener ∈ commentOpeners, opener <+: Text.trimStart line) ∧
        ∀ language : Language,
          (i ∈ leftOut site.settings.repeats before after ∧ ¬ IsCommentOf language line ↔
            (['/', '*'] <+: Text.trimStart line ∨ ['/', '/'] <+: Text.trimStart line) ∧
                language.commentStyle = .hash ∨
              ['#'] <+: Text.trimStart line ∧ language ∉ [Language.python, .ruby, .php]) := by
  intro before after
  refine ⟨removeRepeats_of_nextLine (Text.restOfLine?_eq_some_iff.1 h),
    fun i line hgroup hline => ?_⟩
  have hleft := lone_line_left_out_iff hoff hlarge hgroup hline
  refine ⟨hleft, fun language => ?_⟩
  rw [hleft, ← exists_foreign_opener_iff language (· <+: Text.trimStart line)]
  -- a line begins with at most one opener, so this one decides whether it is a comment
  constructor
  · rintro ⟨⟨opener, hopener, hbegins⟩, hcode⟩
    exact ⟨opener, hopener, hbegins, (not_isCommentOf_iff hopener hbegins).1 hcode⟩
  · rintro ⟨opener, hopener, hbegins, hforeign⟩
    exact ⟨⟨opener, hopener, hbegins⟩, (not_isCommentOf_iff hopener hbegins).2 hforeign⟩

/-- The end of a Rust file with a test, where echoes are kept. -/
def testSite : CompletionSite where
  parser _ _ := none
  before := "#[test]\nfn a() \x7b\x7d\n"
  after := ""
  language := some .rust
  settings := { repeats := { dropEchoedLine := false } }
  minRows := 2

/-- The next test begins with the same attribute, which is no comment of Rust. It is dropped. -/
theorem lone_lines_by_openers_attribute :
    Text.restOfLine? testSite.before.toList "#[test]\nfn b() \x7b\x7d".toList =
        some ([], "#[test]\nfn b() \x7b\x7d".toList) ∧
      [0] ∈ Text.commonLines ((Text.segments testSite.before.toList).map Text.trim)
        ((Text.segments "#[test]\nfn b() \x7b\x7d".toList).map Text.trim) ∧
      ¬ IsCommentOf .rust "#[test]".toList ∧
      0 ∈ leftOut testSite.settings.repeats (Text.segments testSite.before.toList)
        (Text.segments "#[test]\nfn b() \x7b\x7d".toList) ∧
      testSite.run "#[test]\nfn b() \x7b\x7d" .removeRepeats = "\nfn b() \x7b\x7d" := by
  have hrest : Text.restOfLine? testSite.before.toList "#[test]\nfn b() \x7b\x7d".toList =
      some ([], "#[test]\nfn b() \x7b\x7d".toList) := by
    decide +kernel
  have hgroup : [0] ∈ Text.commonLines ((Text.segments testSite.before.toList).map Text.trim)
      ((Text.segments "#[test]\nfn b() \x7b\x7d".toList).map Text.trim) := by
    decide +kernel
  have hlone := (lone_lines_by_openers testSite _ rfl (by decide) hrest).2 0 "#[test]".toList
    -- Rust has no comment that begins with a hash, and the attribute does
    (by simpa using hgroup) (by decide +kernel)
  obtain ⟨hleft, hcode⟩ := (hlone.2 .rust).2 (.inr ⟨by decide +kernel, by decide⟩)
  rw [List.append_nil] at hleft
  exact ⟨hrest, hgroup, hcode, hleft, by decide +kernel⟩

end Cleanup

end CodeAssist
