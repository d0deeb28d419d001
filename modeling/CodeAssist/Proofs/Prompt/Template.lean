import CodeAssist.Prompt.Template
import Mathlib.Data.List.Infix

/-!
# Templates that write the code once

A template may write the code that it is put around more than once, and then it grows by more than
the code. One with at most one place for the code does not (`Template.length_render_le`). For a
text of the user's own the places are those that are left when the file and the language are filled
in, since the code is filled in last; what is filled in for a place is not searched again, so it
does not matter what the code itself holds.
-/

namespace CodeAssist

/-! ### Occurrences -/

namespace Text

/-- Number of places at which a pattern starts in a text. -/
def occurrences (pattern cs : List Char) : Nat :=
  cs.tails.countP pattern.isPrefixOf

/-- The places in a text are its start, where the pattern starts there, and those behind it. -/
theorem occurrences_cons (pattern : List Char) (c : Char) (cs : List Char) :
    occurrences pattern (c :: cs) =
      occurrences pattern cs + if pattern.isPrefixOf (c :: cs) then 1 else 0 := by
  rw [occurrences, List.tails_cons, List.countP_cons, occurrences]

/-- Without a place there is nothing to exchange behind what is passed over. -/
theorem replaceFrom_of_occurrences_eq_zero {pattern cs : List Char}
    (h : occurrences pattern cs = 0) (replacement : List Char) (skip : Nat) :
    replaceFrom pattern replacement skip cs = cs.drop skip := by
  induction cs generalizing skip with
  | nil => cases skip <;> rfl
  | cons c cs ih =>
    rw [occurrences_cons] at h
    -- characters that are skipped are left out; the others are kept, as no occurrence begins there
    cases skip with
    | succ skip => exact ih (by omega) skip
    | zero =>
      have hnot : ¬ pattern.isPrefixOf (c :: cs) = true := fun hyes => by simp [hyes] at h
      rw [replaceFrom, if_neg hnot, ih (by omega)]
      rfl

/-- **With at most one place** a text grows by at most what is filled in there. -/
theorem length_replaceAll_le {pattern cs : List Char} (h : occurrences pattern cs ≤ 1)
    (replacement : List Char) :
    (replaceAll pattern replacement cs).length ≤
      (replaceAll pattern [] cs).length + replacement.length := by
  induction cs with
  | nil => simp [replaceAll, replaceFrom]
  | cons c cs ih =>
    rw [occurrences_cons] at h
    simp only [replaceAll, replaceFrom] at ih ⊢
    split
    case isTrue hyes =>
      -- this is the only place, so the rest stays as it is
      rw [if_pos hyes] at h
      have hrest : occurrences pattern cs = 0 := by omega
      simp only [replaceFrom_of_occurrences_eq_zero hrest, List.length_append, List.length_nil]
      omega
    -- the character stays in both, so the bound is that of the rest
    case isFalse =>
      have hlength := ih (by omega)
      simp only [List.length_cons]
      omega

end Text

/-! ### Places for the code -/

namespace Prompt.Template

/-- Number of places at which a template writes the code. -/
def codePlaces (template : Template) (fileName : String) (language : Option Language) : Nat :=
  match template with
  | header | fence => 1
  | custom text =>
    let named := Text.replaceAll fileNamePlaceholder fileName.toList text.toList
    let told := Text.replaceAll languagePlaceholder
      ((language.map Language.proseName).getD "").toList named
    Text.occurrences codePlaceholder told

/-- **A template that writes the code at most once** adds no more to it than it measures around
nothing. -/
theorem length_render_le {template : Template} {fileName : String} {language : Option Language}
    (h : template.codePlaces fileName language ≤ 1) (code : String) :
    (template.render code fileName language).toList.length ≤
      (template.render "" fileName language).toList.length + code.toList.length := by
  -- the two named templates have the code once, and the others as often as its placeholder stands
  cases template with
  | header | fence =>
    simp only [render, String.toList_append, List.length_append, String.toList_empty,
      List.length_nil]
    omega
  | custom text =>
    simp only [render, String.toList_ofList, String.toList_empty]
    exact Text.length_replaceAll_le h code.toList

end Prompt.Template

end CodeAssist
