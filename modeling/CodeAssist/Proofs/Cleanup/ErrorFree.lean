import CodeAssist.Proofs.Analysis.Innermost
import CodeAssist.Proofs.Cleanup.Repair

/-!
# Code without errors

The search for errors keeps fewer errors than it meets: a node that it meets later takes the place
of those whose span holds its own, and the ceiling ends the search before it has met all of them.
But it never throws out an error without keeping another one, so once it has kept one, it answers at
least one (`walk_errorVisitor_ne_nil`). The root is what it meets first, whatever the ceiling. So
the answer is empty exactly where the root has no error. A repair relies on no more than this when
it ends because no errors are left: the number that it counts may be too low, but it is zero only
for code without errors.

Main statement: `no_errors_iff_errorFree`.
-/

namespace CodeAssist

open CodeAssist.Tree (Parser SyntaxTree)

namespace Analysis

open CodeAssist.Tree (Node Visitor)

variable (tree : SyntaxTree) {ceiling : Nat}

/-- An error is only thrown out for another one. -/
theorem errorVisitor_visit_ne_nil (depth : Nat) (n : Node) (kept : List Tree.Excerpt)
    (h : kept ≠ []) : (errorVisitor tree).visit depth n kept ≠ [] := by
  simp only [errorVisitor]
  split
  · exact List.append_ne_nil_of_right_ne_nil _ (List.cons_ne_nil _ _)
  · exact h

/-- Once an error is kept, a walk ends with one, wherever the ceiling cuts it off. -/
theorem walk_errorVisitor_ne_nil (ceiling : Nat) (pending : List (Nat × Node))
    {kept : List Tree.Excerpt} (h : kept ≠ []) :
    ((errorVisitor tree).walk ceiling pending kept).2 ≠ [] := by
  have hstep := errorVisitor_visit_ne_nil tree
  exact Visitor.walk_preserves hstep h

/-- **No errors are found** exactly where the root has none. -/
theorem innermostErrors_eq_nil_iff (h : 1 ≤ ceiling) :
    innermostErrors tree ceiling = [] ↔ tree.root.hasError = false := by
  obtain ⟨ceiling, rfl⟩ := Nat.exists_eq_add_of_le' h
  -- the root is entered first, and the rest of the walk starts from what is kept then
  have hwalk : innermostErrors tree (ceiling + 1) =
      ((errorVisitor tree).walk ceiling ((errorVisitor tree).below 0 tree.root ++ [])
        ((errorVisitor tree).visit 0 tree.root [])).2 := rfl
  rw [hwalk, List.append_nil]
  cases herror : tree.root.hasError with
  | true =>
    -- the root was kept, and an error is only ever given up for another one
    have hkept : (errorVisitor tree).visit 0 tree.root [] ≠ [] := by
      simp [errorVisitor, herror, keepInner]
    exact iff_of_false (walk_errorVisitor_ne_nil tree ceiling _ hkept) (Ne.symm Bool.false_ne_true)
  | false =>
    -- below a root without an error nothing is entered
    have hbelow : (errorVisitor tree).below 0 tree.root = [] := by
      simp [Visitor.below, errorVisitor, herror]
    have hkept : (errorVisitor tree).visit 0 tree.root [] = [] := by
      simp [errorVisitor, herror]
    rw [hbelow, hkept]
    refine iff_of_true ?_ rfl
    cases ceiling <;> rfl

end Analysis

namespace Cleanup

variable {parser : Parser} {code before after : String} {language : Option Language}

/-- The code can be parsed, and its tree has no error. -/
def IsErrorFree (parser : Parser) (code : String) (language : Option Language) : Prop :=
  ∃ tree, (tryParse parser code language).ready? = some tree ∧ tree.root.hasError = false

theorem errorCount?_eq (parser : Parser) (code : String) (language : Option Language) :
    errorCount? parser code language = (tryParse parser code language).ready?.map fun tree =>
      (Analysis.innermostErrors tree Analysis.defaultCeiling).length := by
  unfold errorCount?
  cases tryParse parser code language <;> rfl

/-- **The count is zero** exactly for code without errors. -/
theorem errorCount?_eq_zero_iff :
    errorCount? parser code language = some 0 ↔ IsErrorFree parser code language := by
  rw [errorCount?_eq, Option.map_eq_some_iff]
  refine exists_congr fun tree => and_congr_right fun _ => ?_
  rw [List.length_eq_zero_iff, Analysis.innermostErrors_eq_nil_iff tree (by decide)]

/-- No attempt is made where no errors are left. -/
theorem repair_of_errorFree (count? : List Char → Option Nat) (attempts : Nat) (text : List Char) :
    repair count? attempts 0 text = text := by
  cases attempts with
  | zero => rfl
  | succ attempts => rw [repair, if_pos rfl]

/-- A completion that leaves the code without errors stays as it is. -/
theorem repairEnd_of_errorFree {completion : String}
    (h : IsErrorFree parser (before ++ completion ++ after) language) (maxAttempts : Nat) :
    repairEnd parser before completion after language maxAttempts = completion := by
  rcases repairEnd_cases parser before completion after language maxAttempts with
    ⟨hsame, -⟩ | ⟨best, hbest, hrepair⟩
  · exact hsame
  -- an error-free text has a count, which is zero, and no count is less
  · have hzero : errorsBetween? parser before after language completion.toList = some 0 := by
      rw [errorsBetween?, String.ofList_toList, errorCount?_eq_zero_iff]
      exact h
    obtain rfl := Option.some.inj (hbest.symm.trans hzero)
    rw [repair_of_errorFree] at hrepair
    exact String.toList_inj.1 hrepair

/-- **The search for errors tells code without errors from other code**, under every ceiling that
lets it enter the root at all. It finds no errors exactly where the root has none. So what a repair
counts for a candidate is zero exactly where the code with that candidate is parsed without an
error; and where that is the completion itself, nothing is cut off. -/
theorem no_errors_iff_errorFree {ceiling : Nat} (h : 1 ≤ ceiling) :
    (∀ tree, Analysis.innermostErrors tree ceiling = [] ↔ tree.root.hasError = false) ∧
      (∀ parser before after language candidate,
        errorsBetween? parser before after language candidate = some 0 ↔
          IsErrorFree parser (before ++ String.ofList candidate ++ after) language) ∧
      ∀ parser before completion after language maxAttempts,
        IsErrorFree parser (before ++ completion ++ after) language →
          repairEnd parser before completion after language maxAttempts = completion :=
  ⟨fun tree => Analysis.innermostErrors_eq_nil_iff tree h,
    fun _ _ _ _ _ => errorCount?_eq_zero_iff,
    fun _ _ _ _ _ maxAttempts hfree => repairEnd_of_errorFree hfree maxAttempts⟩

/-- The ceiling cuts off the missing brace, and the error before it has taken the place of the
root. With two closing braces there is one too many, and with one there is none. -/
theorem no_errors_iff_errorFree_braces :
    1 ≤ 3 ∧ Analysis.innermostErrors Analysis.unclosedBlock 3 ≠ [] ∧
      errorsBetween? braceParser "\x7b" "\x7d" (some .rust) "a \x7d".toList ≠ some 0 ∧
      IsErrorFree braceParser "\x7ba\x7d" (some .rust) ∧
      repairEnd braceParser "\x7b" "a" "\x7d" (some .rust) 4 = "a" := by
  have hceiling : 1 ≤ 3 := by decide
  obtain ⟨herrors, hcount, hrepair⟩ := no_errors_iff_errorFree hceiling
  have hfree : IsErrorFree braceParser "\x7ba\x7d" (some .rust) :=
    (hcount braceParser "\x7b" "\x7d" (some .rust) "a".toList).1 (by decide +kernel)
  have hbroken : errorsBetween? braceParser "\x7b" "\x7d" (some .rust) "a \x7d".toList ≠ some 0 :=
    by decide +kernel
  refine ⟨hceiling, fun hnone => ?_, hbroken, hfree, hrepair _ _ _ _ _ 4 hfree⟩
  cases (herrors Analysis.unclosedBlock).1 hnone

end Cleanup

end CodeAssist
