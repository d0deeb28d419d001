import CodeAssist.Cleanup.Blocks
import CodeAssist.Proofs.Analysis.Parsed
import CodeAssist.Proofs.Tree.Preorder

/-!
# Completions that are nothing but comments

Whether a text is nothing but comments is decided on a walk that never goes below the children of
the root. So the walk meets the root and then its children in their order, and a ceiling is used up
by these alone (`isAllComments_iff`): one step goes to the root, and the children behind the others
are not seen. An early end at the first child that is no comment changes nothing, because the answer
stays the same from there on (`run_onlyKinds`).

Main statement: `discardComments_by_children`.
-/

namespace CodeAssist

open CodeAssist.Tree

namespace Analysis

/-! ### The walk -/

/-- A run keeps whether all that lies before the ceiling, a root apart, is of some kinds. -/
theorem run_onlyKinds (kinds : List String) (ceiling : Nat) (entries : List (Nat × Node))
    (only : Bool) :
    ((onlyKindsVisitor kinds).run ceiling entries only).2 =
      (only && (entries.take ceiling).all fun entry =>
        entry.1 = 0 || kinds.contains entry.2.kind) := by
  -- the walk takes one entry a visit, so the induction is on the visits
  induction ceiling generalizing entries only with
  | zero => simp [Visitor.run]
  | succ ceiling ih =>
    cases entries with
    | nil => simp [Visitor.run]
    | cons entry rest =>
      have hstops : (onlyKindsVisitor kinds).stops = fun only => !only := rfl
      have henter : (onlyKindsVisitor kinds).enter entry.1 entry.2 only =
          (only && (entry.1 = 0 || kinds.contains entry.2.kind)) := rfl
      simp only [Visitor.run, hstops, henter, List.take_succ_cons, List.all_cons, ← Bool.and_assoc]
      -- from the first entry of another kind on the answer is no, whether the walk ends or not
      cases only with
      | false => simp
      | true =>
        cases hentry : (decide (entry.1 = 0) || kinds.contains entry.2.kind) with
        | false => simp
        | true => simp [ih]

/-- The walk meets the root and its children. -/
theorem preorder_onlyKinds (kinds : List String) (root : Node) :
    Node.preorder (onlyKindsVisitor kinds).skips 0 root =
      (0, root) :: root.children.map (1, ·) := by
  have hroot : (onlyKindsVisitor kinds).skips 0 root = false := rfl
  have hchild : Node.preorder (onlyKindsVisitor kinds).skips 1 = fun child => [(1, child)] := by
    funext child
    rw [Node.preorder_eq]
    rfl
  rw [Node.preorder_eq, hroot, if_neg Bool.false_ne_true, Nat.zero_add, hchild,
    List.map_eq_flatMap]

/-- **Nothing but comments**, under a ceiling: the root takes one step, and the children that are
met in the others are comments. -/
theorem isAllComments_iff {tree : SyntaxTree} {ceiling : Nat} :
    isAllComments tree ceiling = true ↔ tree.language ≠ .php ∧
      ∀ child ∈ tree.root.children.take (ceiling - 1),
        child.kind ∈ (kindTable tree.language).comments := by
  unfold isAllComments
  split
  case h_1 hphp => simp [hphp]
  case h_2 hother =>
    rw [Visitor.depthFirst, Visitor.walk_eq_run, Visitor.order, List.flatMap_singleton,
      run_onlyKinds, preorder_onlyKinds, Bool.true_and, List.all_eq_true]
    -- the root is the first of the visits
    cases ceiling with
    | zero => simpa using hother
    | succ ceiling => simpa [← List.map_take] using fun _ => hother

end Analysis

/-! ### Discarding -/

namespace Cleanup

open CodeAssist.Analysis (kindTable isAllComments isAllComments_iff)

/-- The kinds of the nodes right below a root, as far as a walk of a thousand nodes goes. -/
def topKinds (root : Node) : List String :=
  (root.children.take 999).map Node.kind

variable {parser : Parser} {completion : String} {language : Option Language}

/-- A completion is discarded or stays as it is. -/
theorem discardComments_eq_or_eq :
    discardComments parser completion language = "" ∨
      discardComments parser completion language = completion := by
  unfold discardComments
  split
  · exact .inl rfl
  · split
    · exact ite_eq_or_eq _ _ _
    · exact .inr rfl

/-- A completion with text is discarded where it has a tree that begins with comments only. -/
theorem discardComments_eq_empty_iff (htext : completion ≠ "") :
    discardComments parser completion language = "" ↔
      ∃ known kinds, language = some known ∧ known ≠ .php ∧
        (parser known completion).map topKinds = some kinds ∧
        ∀ kind ∈ kinds, kind ∈ (kindTable known).comments := by
  rw [discardComments, if_neg htext]
  cases language with
  | none => simp [tryParse, Outcome.ready?, htext]
  | some known =>
    rw [ready?_tryParse]
    cases hroot : parser known completion with
    | none => simp [hroot, htext]
    | some root =>
      have hcomments : isAllComments ⟨completion, known, root⟩ Analysis.defaultCeiling = true ↔
          known ≠ .php ∧ ∀ kind ∈ topKinds root, kind ∈ (kindTable known).comments := by
        rw [isAllComments_iff, topKinds, List.forall_mem_map]
        rfl
      simp [hroot, htext, hcomments]

/-- **Comments alone are discarded.** A completion is discarded exactly if it is empty, or its
language is known and not PHP and the first 999 nodes right below the root of its tree, or as many
as there are, are comments. Otherwise it stays as it is. Nothing else of a tree plays a part. -/
theorem discardComments_by_children (parser : Parser) (completion : String)
    (language : Option Language) :
    (discardComments parser completion language = "" ↔
      completion = "" ∨ ∃ known root, language = some known ∧ known ≠ .php ∧
        parser known completion = some root ∧
        ∀ child ∈ root.children.take 999, child.kind ∈ (kindTable known).comments) ∧
    (discardComments parser completion language ≠ "" →
      discardComments parser completion language = completion) ∧
    ∀ other : Parser,
      (∀ known, (other known completion).map topKinds = (parser known completion).map topKinds) →
      discardComments other completion language = discardComments parser completion language := by
  by_cases htext : completion = ""
  · simp [discardComments, htext]
  -- a text that is discarded without a look at the tree is the empty one
  · refine ⟨?_, discardComments_eq_or_eq.resolve_left, fun other hother => ?_⟩
    · rw [discardComments_eq_empty_iff htext]
      simp [htext, topKinds, -List.map_take]
    · -- both trees are judged by the same kinds
      have hsame : discardComments other completion language = "" ↔
          discardComments parser completion language = "" := by
        simp only [discardComments_eq_empty_iff htext, hother]
      by_cases hdiscarded : discardComments parser completion language = ""
      · rw [hdiscarded, hsame.2 hdiscarded]
      · rw [discardComments_eq_or_eq.resolve_left hdiscarded,
          discardComments_eq_or_eq.resolve_left (mt hsame.1 hdiscarded)]

/-- A module of 999 comments with a statement behind them, and nodes below each comment. -/
def commentedModule (below : List Node) : Node :=
  .mk ⟨"module", true, false, false, 0, 2002⟩
    (((List.range 999).map fun i => .mk ⟨"comment", true, false, false, 2 * i, 2 * i + 1⟩ below) ++
      [.mk ⟨"pass_statement", true, false, false, 1998, 2002⟩ []])

/-- The comments are all that is seen. -/
theorem topKinds_commentedModule (below : List Node) :
    topKinds (commentedModule below) = List.replicate 999 "comment" := by
  rw [topKinds, commentedModule, Node.children, List.take_left' (by simp only [List.length_map,
    List.length_range]), List.map_map]
  exact (List.map_const' ..).trans (by rw [List.length_range])

/-- The statement behind 999 comments is not seen, so the text is discarded, whatever stands below
the comments. Of an unresolved language the same text stays. -/
theorem discardComments_by_children_commentedModule :
    let text := String.join (List.replicate 999 "#\n") ++ "pass"
    let parser : List Node → Parser := fun below _ _ => some (commentedModule below)
    discardComments (parser []) text (some .python) = "" ∧
      (∀ below, (∀ known, (parser below known text).map topKinds =
          (parser [] known text).map topKinds) ∧
        discardComments (parser below) text (some .python) = "") ∧
      discardComments (parser []) text none ≠ "" ∧
      discardComments (parser []) text none = text := by
  intro text parser
  obtain ⟨hdiscarded, -, hsame⟩ := discardComments_by_children (parser []) text (some .python)
  obtain ⟨hunresolved, hstays, -⟩ := discardComments_by_children (parser []) text none
  have hcomments : discardComments (parser []) text (some .python) = "" := by
    refine hdiscarded.2 (.inr ⟨.python, commentedModule [], rfl, by decide, rfl, ?_⟩)
    refine List.forall_mem_map.1 fun kind hkind => ?_
    rw [← topKinds, topKinds_commentedModule] at hkind
    rw [List.eq_of_mem_replicate hkind]
    decide
  have hkept : discardComments (parser []) text none ≠ "" := by
    have htext : ∀ before : String, before ++ "pass" ≠ "" := by simp
    intro hempty
    obtain hempty | ⟨known, -, hknown, -⟩ := hunresolved.1 hempty
    · exact htext _ hempty
    · cases hknown
  refine ⟨hcomments, fun below => ?_, hkept, hstays hkept⟩
  have hkinds : ∀ known, (parser below known text).map topKinds =
      (parser [] known text).map topKinds := by
    intro known
    simp only [parser, Option.map_some, topKinds_commentedModule]
  exact ⟨hkinds, (hsame _ hkinds).trans hcomments⟩

end Cleanup

end CodeAssist
