import CodeAssist.Analysis.Comments
import CodeAssist.Analysis.Symbols
import CodeAssist.Proofs.Tree.Walks
import Mathlib.Tactic.Common

/-!
# Raising the ceiling of an analysis

The analyses that go through a whole tree are cut off by a ceiling of entered nodes. What they
collect moves in one direction only: imports and signatures are added at the end, a count goes up,
and a text that was found to have something other than comments stays one. So a higher ceiling adds
to what a lower one finds and takes nothing back (`raising_ceiling_adds`). Each of the analyses
needs no more than its one step for that, the rest is `Visitor.depthFirst_grows`.
-/

namespace CodeAssist

/-- Every count of `low` is also one of `high`, which may count more. -/
def Dictionary.AtMost (low high : Dictionary Nat) : Prop :=
  ∀ name count, low.get? name = some count → ∃ more, high.get? name = some more ∧ count ≤ more

namespace Dictionary.AtMost

variable {a b c : Dictionary Nat}

theorem refl (a : Dictionary Nat) : a.AtMost a :=
  fun _ count h => ⟨count, h, Nat.le_refl count⟩

theorem trans (hab : a.AtMost b) (hbc : b.AtMost c) : a.AtMost c := by
  intro name count h
  obtain ⟨more, hmore, hle⟩ := hab name count h
  obtain ⟨most, hmost, hle'⟩ := hbc name more hmore
  exact ⟨most, hmost, Nat.le_trans hle hle'⟩

end Dictionary.AtMost

namespace Analysis

open CodeAssist.Tree

variable {ceiling higher : Nat}

/-! ### One direction -/

/-- Counting one more raises one count and keeps the others. -/
theorem atMost_countOne (counts : Dictionary Nat) (name : String) :
    counts.AtMost (countOne counts name) := by
  intro other count h
  -- The counted name goes up by one, and all others stay.
  by_cases hname : other = name
  · subst hname
    exact ⟨_, Dictionary.get?_insert_self .., by rw [h]; exact Nat.le_succ count⟩
  · exact ⟨count, (Dictionary.get?_insert_of_ne _ hname _).trans h, Nat.le_refl count⟩

/-- Imports are added at the end, in Ruby and elsewhere. -/
theorem isPrefix_imports (tree : SyntaxTree) (h : ceiling ≤ higher) :
    imports tree ceiling <+: imports tree higher := by
  unfold imports
  split
  · -- Only some of the calls are imports.
    refine Visitor.depthFirst_grows List.prefix_refl List.IsPrefix.trans (fun _ n found => ?_) h _ _
    simp only [requireVisitor]
    split
    · exact List.prefix_append found _
    · exact List.prefix_refl found
  · exact Visitor.depthFirst_grows List.prefix_refl List.IsPrefix.trans
      (fun _ _ found => List.prefix_append found _) h _ _

/-- Signatures are added at the end. -/
theorem isPrefix_signatures (tree : SyntaxTree) (h : ceiling ≤ higher) :
    signatures tree ceiling <+: signatures tree higher := by
  refine Visitor.depthFirst_grows List.prefix_refl List.IsPrefix.trans (fun _ n found => ?_) h _ _
  simp only [signatureVisitor]
  -- A function whose kind has no form adds nothing, and neither does an empty header.
  split
  · exact List.prefix_refl found
  · split
    · exact List.prefix_refl found
    · exact List.prefix_append found _

/-- Counts go up, in Ruby and elsewhere. -/
theorem atMost_symbolCounts (tree : SyntaxTree) (h : ceiling ≤ higher) :
    (symbolCounts tree ceiling).AtMost (symbolCounts tree higher) := by
  unfold symbolCounts
  split
  · -- A node that counts under no name changes no count.
    refine Visitor.depthFirst_grows .refl .trans (fun _ n counts => ?_) h _ _
    simp only [rubyCountVisitor]
    split
    · exact atMost_countOne counts _
    · exact .refl counts
  · exact Visitor.depthFirst_grows .refl .trans (fun _ n counts => atMost_countOne counts n.kind)
      h _ _

/-- What is found to be something other than a comment stays that. -/
theorem isAllComments_of_le (tree : SyntaxTree) (h : ceiling ≤ higher)
    (hhigher : isAllComments tree higher = true) : isAllComments tree ceiling = true := by
  unfold isAllComments at hhigher ⊢
  split at hhigher
  · cases hhigher
  -- The answer can only be taken back, so the growth goes from later states to earlier ones.
  · exact Visitor.depthFirst_grows (R := fun before after : Bool => after = true → before = true)
      (fun _ => id) (fun hst htu hu => hst (htu hu))
      (fun _ _ _ hafter => (Bool.and_eq_true_iff.1 hafter).1) h _ _ hhigher

/-! ### All analyses -/

/-- **Raising the ceiling only adds.** The imports and the signatures under a ceiling are the first
ones of those under a higher ceiling, no count gets smaller, and a text that is all comments under
the higher ceiling is so under the lower one. -/
theorem raising_ceiling_adds (tree : SyntaxTree) (h : ceiling ≤ higher) :
    imports tree ceiling <+: imports tree higher ∧
      signatures tree ceiling <+: signatures tree higher ∧
      (symbolCounts tree ceiling).AtMost (symbolCounts tree higher) ∧
      (isAllComments tree higher = true → isAllComments tree ceiling = true) :=
  ⟨isPrefix_imports tree h, isPrefix_signatures tree h, atMost_symbolCounts tree h,
    isAllComments_of_le tree h⟩

/-- A file of two comments, an import between two functions, and a second import. -/
def mixedFile : SyntaxTree where
  source := "# a\n# b\ndef f(): pass\nimport os\ndef g(): pass\nimport re"
  language := .python
  root := .mk ⟨"module", true, false, false, 0, 55⟩
    [.mk ⟨"comment", true, false, false, 0, 3⟩ [],
      .mk ⟨"comment", true, false, false, 4, 7⟩ [],
      .mk ⟨"function_definition", true, false, false, 8, 21⟩
        [.mk ⟨"block", true, false, true, 17, 21⟩ []],
      .mk ⟨"import_statement", true, false, false, 22, 31⟩ [],
      .mk ⟨"function_definition", true, false, false, 32, 45⟩
        [.mk ⟨"block", true, false, true, 41, 45⟩ []],
      .mk ⟨"import_statement", true, false, false, 46, 55⟩ []]

/-- Six nodes show the first function and the first import, nine all of the file, and three nothing
but comments. -/
theorem raising_ceiling_adds_mixedFile :
    (imports mixedFile 6 = ["import os"] ∧ imports mixedFile 9 = ["import os", "import re"] ∧
      imports mixedFile 6 <+: imports mixedFile 9) ∧
      (signatures mixedFile 6 = ["def f():"] ∧ signatures mixedFile 9 = ["def f():", "def g():"] ∧
        signatures mixedFile 6 <+: signatures mixedFile 9) ∧
      ((symbolCounts mixedFile 6).get? "function_definition" = some 1 ∧
        ∃ more, (symbolCounts mixedFile 9).get? "function_definition" = some more ∧ 1 ≤ more) ∧
      isAllComments mixedFile 3 = true ∧ isAllComments mixedFile 2 = true := by
  -- The first ceilings are for what is collected, the second ones for the comments.
  obtain ⟨himports, hsignatures, hcounts, -⟩ :=
    raising_ceiling_adds mixedFile (show 6 ≤ 9 by decide)
  obtain ⟨-, -, -, hcomments⟩ := raising_ceiling_adds mixedFile (show 2 ≤ 3 by decide)
  have hthree : isAllComments mixedFile 3 = true := by decide +kernel
  have hone : (symbolCounts mixedFile 6).get? "function_definition" = some 1 := by decide +kernel
  exact ⟨⟨by decide +kernel, by decide +kernel, himports⟩,
    ⟨by decide +kernel, by decide +kernel, hsignatures⟩, ⟨hone, hcounts _ _ hone⟩,
    hthree, hcomments hthree⟩

end Analysis

end CodeAssist
