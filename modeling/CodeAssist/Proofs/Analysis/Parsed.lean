import CodeAssist.Analysis.Outcome
import CodeAssist.Proofs.Text.Points
import CodeAssist.Proofs.Tree.Walks

/-!
# Parsed texts

What analyses may rely on in the answers of a parser, of which nothing is known. A tree that was
parsed belongs to the text that was given (`exists_root_of_tryParse`). A node with text is a piece
of that text, because offsets that are no cuts give no text (`SyntaxTree.exists_parts_of_textOf`).
And points follow offsets, so a node that does not start behind its end does not end before the
point at which it starts (`SyntaxTree.startPoint_le_stopPoint`), nor on an earlier row.
-/

namespace CodeAssist

/-- A text is parsed with a root that the parser gives for it. -/
theorem exists_root_of_tryParse {parser : Tree.Parser} {source : String}
    {language : Option Language} {tree : Tree.SyntaxTree}
    (h : (tryParse parser source language).ready? = some tree) :
    ∃ used root, parser used source = some root ∧ tree = ⟨source, used, root⟩ := by
  -- without a language nothing is parsed, and a parse may fail
  cases language with
  | none => simp [tryParse, Outcome.ready?] at h
  | some used =>
    cases hroot : parser used source with
    | none => simp [tryParse, Tree.SyntaxTree.parse, hroot, Outcome.ready?] at h
    | some root =>
      simp only [tryParse, Tree.SyntaxTree.parse, hroot, Outcome.ready?, Option.some.injEq] at h
      exact ⟨used, root, hroot, h.symm⟩

/-- In a known language a text has the tree that the parser gives for it. -/
theorem ready?_tryParse (parser : Tree.Parser) (source : String) (known : Language) :
    (tryParse parser source (some known)).ready? =
      (parser known source).map fun root => ⟨source, known, root⟩ := by
  cases hroot : parser known source with
  | none => simp [tryParse, Tree.SyntaxTree.parse, hroot, Outcome.ready?]
  | some root => simp [tryParse, Tree.SyntaxTree.parse, hroot, Outcome.ready?]

namespace Tree

/-! ### Nodes that do not start behind their end -/

/-- A node that does not start behind its end. -/
def Node.Forward (n : Node) : Prop := n.start ≤ n.stop

/-- A parser of which no tree has a node that starts behind its end. -/
def Parser.Forward (parser : Parser) : Prop :=
  ∀ language source root, parser language source = some root → root.Every Node.Forward

/-- A node whose children lie within it, one behind the other, and that has an error where one of
them has. -/
structure Node.Encloses (n : Node) : Prop where
  forward : n.Forward
  within : ∀ child ∈ n.children, n.start ≤ child.start ∧ child.stop ≤ n.stop
  ordered : n.children.Pairwise fun a b => a.stop ≤ b.start
  hasError_of_mem : ∀ child ∈ n.children, child.hasError = true → n.hasError = true

/-- A tree of nodes that enclose their children. -/
def Node.WellFormed (root : Node) : Prop := root.Every Node.Encloses

/-- A node without children is a well-formed tree where it does not start behind its end. -/
theorem Node.wellFormed_of_leaf {n : Node} (hchildren : n.children = []) (h : n.Forward) :
    n.WellFormed := by
  refine .intro ⟨h, ?_, ?_, ?_⟩ ?_ <;> simp [hchildren]

/-- What is parsed has no node that starts behind its end. -/
theorem every_forward_of_tryParse {parser : Parser} (hparser : parser.Forward)
    {source : String} {language : Option Language} {tree : SyntaxTree}
    (h : (tryParse parser source language).ready? = some tree) :
    tree.root.Every Node.Forward := by
  obtain ⟨used, root, hroot, rfl⟩ := exists_root_of_tryParse h
  exact hparser used source root hroot

namespace SyntaxTree

/-- A node does not end before the point at which it starts. -/
theorem startPoint_le_stopPoint (tree : SyntaxTree) {n : Node} (h : n.Forward) :
    tree.startPoint n ≤ tree.stopPoint n :=
  Text.pointAt_mono h _

/-- A node does not end on an earlier row than it starts on. -/
theorem startPoint_row_le (tree : SyntaxTree) {n : Node} (h : n.Forward) :
    (tree.startPoint n).row ≤ (tree.stopPoint n).row :=
  Text.Point.row_le_of_le (tree.startPoint_le_stopPoint h)

/-! ### Nodes in their text -/

/-- **A node with text is a piece of the source**, and starts behind what comes before that
piece. -/
theorem exists_parts_of_textOf {tree : SyntaxTree} {n : Node} (h : tree.textOf n ≠ "") :
    ∃ a b, tree.source.toList = a ++ (tree.textOf n).toList ++ b ∧
      tree.startPoint n = Text.endPoint a := by
  cases hslice : Text.slice? n.start n.stop tree.source.toList with
  | none =>
    -- offsets that are no cuts give no text
    exact absurd (by simp [textOf, textBetween, hslice]) h
  | some kept =>
    obtain ⟨a, b, hsource, hstart, -⟩ := Text.eq_append_of_slice? hslice
    have htext : (tree.textOf n).toList = kept := by simp [textOf, textBetween, hslice]
    refine ⟨a, b, htext.symm ▸ hsource, ?_⟩
    rw [startPoint, hsource, ← hstart, List.append_assoc, Text.pointAt_byteSize_append]

end SyntaxTree

end Tree

end CodeAssist
